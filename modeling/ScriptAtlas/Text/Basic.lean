/-!
Text as a sequence of bytes. Scripts come from files of any encoding and some operations cut inside
a multi-byte character, so text is not required to be valid UTF-8; where characters matter, a byte
that starts no valid character reads as U+FFFD.
-/

namespace ScriptAtlas

/-- Bytes, UTF-8 by convention. -/
abbrev Text := List UInt8

namespace Text

def ofString (s : String) : Text :=
  s.toList.flatMap String.utf8EncodeChar

instance : Coe String Text where
  coe := ofString

def ofStrings (strings : List String) : List Text :=
  strings.map ofString

def ofChars (cs : List Char) : Text :=
  cs.flatMap String.utf8EncodeChar

/-! ### Reading characters -/

def isContinuation (b : UInt8) : Bool :=
  0x80 ≤ b && b ≤ 0xBF

/-- The bytes that may follow `b` as the second byte of a character. -/
def isSecond (b c : UInt8) : Bool :=
  if b == 0xE0 then 0xA0 ≤ c && c ≤ 0xBF
  else if b == 0xED then 0x80 ≤ c && c ≤ 0x9F
  else if b == 0xF0 then 0x90 ≤ c && c ≤ 0xBF
  else if b == 0xF4 then 0x80 ≤ c && c ≤ 0x8F
  else isContinuation c

/-- The character that begins with byte `b` and how many of the following bytes it takes, if there is
one. -/
def leadingChar (b : UInt8) (rest : Text) : Option (Char × Nat) :=
  if b < 0x80 then some (Char.ofNat b.toNat, 0)
  else if 0xC2 ≤ b && b ≤ 0xDF then
    match rest with
    | c :: _ =>
      if isContinuation c then some (Char.ofNat ((b.toNat - 0xC0) * 64 + (c.toNat - 0x80)), 1)
      else none
    | _ => none
  else if 0xE0 ≤ b && b ≤ 0xEF then
    match rest with
    | c :: d :: _ =>
      if isSecond b c && isContinuation d then
        some (Char.ofNat ((b.toNat - 0xE0) * 4096 + (c.toNat - 0x80) * 64 + (d.toNat - 0x80)), 2)
      else none
    | _ => none
  else if 0xF0 ≤ b && b ≤ 0xF4 then
    match rest with
    | c :: d :: e :: _ =>
      if isSecond b c && isContinuation d && isContinuation e then
        some (Char.ofNat ((b.toNat - 0xF0) * 262144 + (c.toNat - 0x80) * 4096 +
          (d.toNat - 0x80) * 64 + (e.toNat - 0x80)), 3)
      else none
    | _ => none
  else none

/-- What a reader meets in a text: a character, or a byte that belongs to none. -/
inductive Glyph where
  | char (c : Char)
  | stray (b : UInt8)
  deriving DecidableEq, Repr

def Glyph.toChar : Glyph → Char
  | .char c => c
  | .stray _ => '\uFFFD'

/-- The glyphs after the first `skip` bytes. -/
def glyphsFrom : Nat → Text → List Glyph
  | _, [] => []
  | skip + 1, _ :: rest => glyphsFrom skip rest
  | 0, b :: rest =>
    match leadingChar b rest with
    | some (c, more) => .char c :: glyphsFrom more rest
    | none => .stray b :: glyphsFrom 0 rest

def glyphs (t : Text) : List Glyph :=
  glyphsFrom 0 t

def chars (t : Text) : List Char :=
  t.glyphs.map Glyph.toChar

def toString (t : Text) : String :=
  String.ofList t.chars

def isValid (t : Text) : Bool :=
  t.glyphs.all fun
    | .char _ => true
    | .stray _ => false

/-- The same text with U+FFFD in place of each byte that belongs to no character. -/
def repaired (t : Text) : Text :=
  ofChars t.chars

/-! ### Searching and cutting -/

def startsWith (t p : Text) : Bool :=
  p.isPrefixOf t

def endsWith (t p : Text) : Bool :=
  p.isSuffixOf t

/-- What stands before and after the first occurrence of `needle`. -/
def cut (needle : Text) : Text → Option (Text × Text)
  | [] => if needle.isEmpty then some ([], []) else none
  | b :: rest =>
    if needle.isPrefixOf (b :: rest) then some ([], (b :: rest).drop needle.length)
    else (cut needle rest).map fun (before, after) => (b :: before, after)

def contains (t needle : Text) : Bool :=
  (cut needle t).isSome

def withoutFront (t p : Text) : Text :=
  if p.isPrefixOf t then t.drop p.length else t

def withoutBack (t p : Text) : Text :=
  if p.isSuffixOf t then t.take (t.length - p.length) else t

/-- Every occurrence of `needle`, found from left to right, replaced by `put`; the first `skip`
bytes are dropped. -/
def replaceFrom (needle put : Text) : Nat → Text → Text
  | _, [] => []
  | skip + 1, _ :: rest => replaceFrom needle put skip rest
  | 0, b :: rest =>
    if needle.isPrefixOf (b :: rest) then put ++ replaceFrom needle put (needle.length - 1) rest
    else b :: replaceFrom needle put 0 rest

def replace (t needle put : Text) : Text :=
  replaceFrom needle put 0 t

def splitAt (sep : UInt8) : Text → List Text
  | [] => [[]]
  | b :: rest =>
    if b == sep then [] :: splitAt sep rest
    else
      match splitAt sep rest with
      | [] => [[b]]
      | piece :: pieces => (b :: piece) :: pieces

/-- The pieces of a text between occurrences of `sep`; the first `skip` bytes are dropped. -/
def splitOnFrom (sep : Text) : Nat → Text → List Text
  | _, [] => [[]]
  | skip + 1, _ :: rest => splitOnFrom sep skip rest
  | 0, b :: rest =>
    if sep.isPrefixOf (b :: rest) then [] :: splitOnFrom sep (sep.length - 1) rest
    else
      match splitOnFrom sep 0 rest with
      | [] => [[b]]
      | piece :: pieces => (b :: piece) :: pieces

def join (sep : Text) : List Text → Text
  | [] => []
  | [piece] => piece
  | piece :: pieces => piece ++ sep ++ join sep pieces

/-- Byte order: whether `a` comes strictly before `b`. -/
def before : Text → Text → Bool
  | _, [] => false
  | [], _ :: _ => true
  | a :: as, b :: bs => a < b || (a == b && before as bs)

def sort (ts : List Text) : List Text :=
  ts.mergeSort fun a b => !before b a

/-! ### Numbers -/

def ofNat (n : Nat) : Text :=
  (Nat.toDigits 10 n).map fun c => c.toNat.toUInt8

def ofInt : Int → Text
  | .ofNat n => ofNat n
  | .negSucc n => 0x2D :: ofNat (n + 1)

def isDigit (b : UInt8) : Bool :=
  0x30 ≤ b && b ≤ 0x39

def digitsValue (t : Text) : Nat :=
  t.foldl (fun n b => n * 10 + (b.toNat - 0x30)) 0

end Text

/-- The 64-bit two's complement reading of an integer; sums of line numbers wrap to it. -/
def wrap64 (n : Int) : Int :=
  n.bmod 18446744073709551616

def minInt64 : Int := -9223372036854775808

def maxInt64 : Int := 9223372036854775807

end ScriptAtlas
