import ScriptAtlas.Text.Basic

/-!
White space: tab, line feed, vertical tab, form feed, carriage return, blank, and the blanks of other
scripts (U+0085, U+00A0, U+1680, U+2000 to U+200A, U+2028, U+2029, U+202F, U+205F, U+3000).
-/

namespace ScriptAtlas.Text

def isBlank (b : UInt8) : Bool :=
  (0x09 ≤ b && b ≤ 0x0D) || b == 0x20

def isBlank2 (b c : UInt8) : Bool :=
  b == 0xC2 && (c == 0x85 || c == 0xA0)

def isBlank3 (b c d : UInt8) : Bool :=
  (b == 0xE1 && c == 0x9A && d == 0x80) ||
  (b == 0xE2 && c == 0x80 && ((0x80 ≤ d && d ≤ 0x8A) || d == 0xA8 || d == 0xA9 || d == 0xAF)) ||
  (b == 0xE2 && c == 0x81 && d == 0x9F) ||
  (b == 0xE3 && c == 0x80 && d == 0x80)

/-- How many bytes the blank at the front takes; zero if there is none. -/
def blankWidth : Text → Nat
  | b :: c :: d :: _ =>
    if isBlank b then 1 else if isBlank2 b c then 2 else if isBlank3 b c d then 3 else 0
  | [b, c] => if isBlank b then 1 else if isBlank2 b c then 2 else 0
  | [b] => if isBlank b then 1 else 0
  | [] => 0

def isBlankChar (c : Char) : Bool :=
  blankWidth (ofChars [c]) != 0

/-- Drops blanks from the front, given the blanks of two and of three bytes in reading order. -/
def dropBlanks (two : UInt8 → UInt8 → Bool) (three : UInt8 → UInt8 → UInt8 → Bool) : Text → Text
  | [] => []
  | b :: r =>
    if isBlank b then dropBlanks two three r
    else
      match r with
      | [] => [b]
      | c :: r' =>
        if two b c then dropBlanks two three r'
        else
          match r' with
          | [] => [b, c]
          | d :: r'' => if three b c d then dropBlanks two three r'' else b :: c :: d :: r''

def trimFront (t : Text) : Text :=
  dropBlanks isBlank2 isBlank3 t

def trimBack (t : Text) : Text :=
  (dropBlanks (fun c b => isBlank2 b c) (fun d c b => isBlank3 b c d) t.reverse).reverse

def trim (t : Text) : Text :=
  trimBack (trimFront t)

/-- Words after the first `skip` bytes; `word` holds the bytes of the current one in reverse. -/
def fieldsFrom (word : Text) : Nat → Text → List Text
  | _, [] => if word.isEmpty then [] else [word.reverse]
  | skip + 1, _ :: rest => fieldsFrom word skip rest
  | 0, b :: rest =>
    match blankWidth (b :: rest) with
    | 0 => fieldsFrom (b :: word) 0 rest
    | width + 1 =>
      if word.isEmpty then fieldsFrom [] width rest
      else word.reverse :: fieldsFrom [] width rest

def fields (t : Text) : List Text :=
  fieldsFrom [] 0 t

end ScriptAtlas.Text
