import ScriptAtlas.Text.Basic

/-!
Glob expressions over paths: literal text, `?`, `*` and `**`, character lists and ranges, and
alternatives in braces. Braces that are not closed end with the expression.
-/

namespace ScriptAtlas

inductive GlobNode where
  | literal (t : Text)
  /-- `?`: one character that is no separator. -/
  | single
  /-- `*`: any characters that are no separator. -/
  | any
  /-- `**`: any characters. -/
  | deep
  | among (chars : List Char) (negated : Bool)
  | within (lo hi : Char) (negated : Bool)
  | nothing
  | seq (parts : List GlobNode)
  | alternatives (options : List GlobNode)
  deriving Repr

inductive GlobError where
  | endOfInput
  | rangeNotClosed
  | unreadable
  | emptyRange
  | rangeOrder (hi lo : Char)
  deriving DecidableEq, Repr

def GlobError.message : GlobError → Text
  | endOfInput => "unexpected end of input"
  | rangeNotClosed => "expected close range character"
  | unreadable => "could not read rune"
  | emptyRange => "could not parse range"
  | rangeOrder hi lo =>
    "hi character '" ++ Text.ofChars [hi] ++ "' should be greater than lo '" ++ Text.ofChars [lo] ++
      "'"

namespace GlobNode

mutual

def same : GlobNode → GlobNode → Bool
  | .literal s, .literal t => s == t
  | .single, .single => true
  | .any, .any => true
  | .deep, .deep => true
  | .among s n, .among t m => s == t && n == m
  | .within a b n, .within c d m => a == c && b == d && n == m
  | .nothing, .nothing => true
  | .seq s, .seq t => sameList s t
  | .alternatives s, .alternatives t => sameList s t
  | _, _ => false

def sameList : List GlobNode → List GlobNode → Bool
  | [], [] => true
  | a :: as, b :: bs => same a b && sameList as bs
  | _, _ => false

end

/-! ### Reading -/

/-- A character that stands for a stray byte cannot be read. -/
def isUnreadable (c : Char) : Bool :=
  c == '\uFFFD'

/-- Literal characters up to one of the stoppers; a backslash takes the next character as it is. -/
def readLiteral (stoppers : List Char) : List Char → List Char × List Char
  | [] => ([], [])
  | '\\' :: rest =>
    match rest with
    | [] => ([], [])
    | c :: rest' =>
      if isUnreadable c then ([], c :: rest')
      else
        let (text, after) := readLiteral stoppers rest'
        (c :: text, after)
  | c :: rest =>
    if stoppers.elem c || isUnreadable c then ([], c :: rest)
    else
      let (text, after) := readLiteral stoppers rest
      (c :: text, after)

def closeRange : List Char → Except GlobError (List Char)
  | [] => .error .endOfInput
  | c :: rest =>
    if isUnreadable c then .error .endOfInput
    else if c == ']' then .ok rest
    else .error .rangeNotClosed

/-- A list or range after its opening bracket and the mark of negation. -/
def readRangeBody (negated : Bool) (cs : List Char) : Except GlobError (GlobNode × List Char) :=
  match cs with
  | [] => .error .endOfInput
  | lo :: rest =>
    if isUnreadable lo then .error .endOfInput
    else
      match rest with
      | '-' :: rest =>
        match rest with
        | [] => .error .endOfInput
        | hi :: rest =>
          if isUnreadable hi then .error .endOfInput
          else
            match closeRange rest with
            | .error e => .error e
            | .ok rest =>
              if hi.toNat < lo.toNat then .error (.rangeOrder hi lo)
              else if lo.toNat == 0 || hi.toNat == 0 then .error .emptyRange
              else .ok (.within lo hi negated, rest)
      | _ =>
        let (text, rest) := readLiteral [']'] cs
        match closeRange rest with
        | .error e => .error e
        | .ok rest =>
          if text.isEmpty then .error .emptyRange else .ok (.among text negated, rest)

def readRange (cs : List Char) : Except GlobError (GlobNode × List Char) :=
  match cs with
  | '!' :: rest => readRangeBody true rest
  | _ => readRangeBody false cs

/-- What stands around an open brace: the parts before it and the options read so far, both with the
last one first. -/
structure Frame where
  before : List GlobNode
  options : List GlobNode
  deriving Repr

def Frame.close (f : Frame) (parts : List GlobNode) : List GlobNode :=
  .alternatives (f.options.reverse ++ [.seq parts.reverse]) :: f.before

/-- Reads parts in at most `steps` steps; `parts` are those of the current sequence, last one first.
-/
def readParts : Nat → List Frame → List GlobNode → List Char → Except GlobError GlobNode
  | 0, _, _, _ => .error .endOfInput
  | _ + 1, frames, parts, [] =>
    .ok (.seq (frames.foldl (fun parts frame => frame.close parts) parts).reverse)
  | steps + 1, frames, parts, c :: rest =>
    match c with
    | '{' => readParts steps (⟨parts, []⟩ :: frames) [] rest
    | '[' =>
      match readRange rest with
      | .error e => .error e
      | .ok (node, rest) => readParts steps frames (node :: parts) rest
    | '?' => readParts steps frames (.single :: parts) rest
    | '*' =>
      match rest with
      | '*' :: rest => readParts steps frames (.deep :: parts) rest
      | rest => readParts steps frames (.any :: parts) rest
    | c =>
      match c, frames with
      | ',', frame :: outer =>
        readParts steps (⟨frame.before, .seq parts.reverse :: frame.options⟩ :: outer) [] rest
      | '}', frame :: outer => readParts steps outer (frame.close parts) rest
      | c, frames =>
        if isUnreadable c then .error .unreadable
        else
          let stoppers := ['?', '*', '[', '{'] ++ if frames.isEmpty then [] else ['}', ',']
          let (text, rest') := readLiteral stoppers (c :: rest)
          let parts := if text.isEmpty then parts else .literal (Text.ofChars text) :: parts
          readParts steps frames parts rest'

def parse (t : Text) : Except GlobError GlobNode :=
  readParts (t.chars.length + 1) [] [] t.chars

end GlobNode

end ScriptAtlas
