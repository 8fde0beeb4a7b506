import ScriptAtlas.Json.Basic

/-!
Reading JSON. Stray bytes and lone surrogates read as U+FFFD; containers may be nested ten thousand
deep.
-/

namespace ScriptAtlas.Json

def isSpace (b : UInt8) : Bool :=
  b == 0x20 || b == 0x09 || b == 0x0A || b == 0x0D

def skipSpace (t : Text) : Text :=
  t.dropWhile isSpace

def hexValue? (b : UInt8) : Option Nat :=
  if 0x30 ≤ b && b ≤ 0x39 then some (b.toNat - 0x30)
  else if 0x61 ≤ b && b ≤ 0x66 then some (b.toNat - 0x57)
  else if 0x41 ≤ b && b ≤ 0x46 then some (b.toNat - 0x37)
  else none

def unit? (a b c d : UInt8) : Option Nat := do
  return (← hexValue? a) * 4096 + (← hexValue? b) * 256 + (← hexValue? c) * 16 + (← hexValue? d)

def isHighSurrogate (n : Nat) : Bool :=
  0xD800 ≤ n && n < 0xDC00

def isLowSurrogate (n : Nat) : Bool :=
  0xDC00 ≤ n && n < 0xE000

/-- The character of a code unit that is no half of a pair; a lone half reads as U+FFFD. -/
def charOfUnit (n : Nat) : Char :=
  if isHighSurrogate n || isLowSurrogate n then '\uFFFD' else Char.ofNat n

def escaped? (b : UInt8) : Option UInt8 :=
  match b with
  | 0x22 => some 0x22
  | 0x5C => some 0x5C
  | 0x2F => some 0x2F
  | 0x62 => some 0x08
  | 0x66 => some 0x0C
  | 0x6E => some 0x0A
  | 0x72 => some 0x0D
  | 0x74 => some 0x09
  | _ => none

/-- The second half of a surrogate pair at the front of a text. -/
def lowSurrogate? : Text → Option Nat
  | 0x5C :: 0x75 :: a :: b :: c :: d :: _ =>
    match unit? a b c d with
    | some n => if isLowSurrogate n then some n else none
    | none => none
  | _ => none

/-- The contents of a string literal up to its closing quote, and what follows. The first `skip` bytes
belong to an escape that was read already. -/
def readChars : Nat → Text → Option (Text × Text)
  | _, [] => none
  | skip + 1, _ :: rest => readChars skip rest
  | 0, b :: rest =>
    if b == 0x22 then some ([], rest)
    else if b < 0x20 then none
    else if b == 0x5C then
      match rest with
      | 0x75 :: p :: q :: r :: s :: after =>
        match unit? p q r s with
        | none => none
        | some n =>
          match if isHighSurrogate n then lowSurrogate? after else none with
          | some low =>
            (readChars 11 rest).map fun (t, rest) =>
              (Text.ofChars [Char.ofNat (0x10000 + (n - 0xD800) * 1024 + (low - 0xDC00))] ++ t, rest)
          | none => (readChars 5 rest).map fun (t, rest) => (Text.ofChars [charOfUnit n] ++ t, rest)
      | e :: _ =>
        match escaped? e with
        | some c => (readChars 1 rest).map fun (t, rest) => (c :: t, rest)
        | none => none
      | [] => none
    else (readChars 0 rest).map fun (t, rest) => (b :: t, rest)

def readString (t : Text) : Option (Text × Text) :=
  (readChars 0 t).map fun (t, rest) => (Text.repaired t, rest)

def readDigits (t : Text) : Option (Text × Text) :=
  let digits := t.takeWhile Text.isDigit
  if digits.isEmpty then none else some (digits, t.drop digits.length)

/-- The whole part of a number: zero, or digits that do not begin with zero. -/
def readWhole (t : Text) : Option (Text × Text) :=
  match t with
  | 0x30 :: rest => some ([0x30], rest)
  | _ => readDigits t

def readFraction (t : Text) : Option (Text × Text) :=
  match t with
  | 0x2E :: rest => (readDigits rest).map fun (digits, rest) => (0x2E :: digits, rest)
  | _ => some ([], t)

def readExponent (t : Text) : Option (Text × Text) :=
  match t with
  | e :: rest =>
    if e == 0x65 || e == 0x45 then
      match rest with
      | sign :: rest' =>
        if sign == 0x2B || sign == 0x2D then
          (readDigits rest').map fun (digits, rest) => (e :: sign :: digits, rest)
        else (readDigits rest).map fun (digits, rest) => (e :: digits, rest)
      | [] => none
    else some ([], t)
  | [] => some ([], t)

def readNumber (t : Text) : Option (Text × Text) := do
  let (sign, t) : Text × Text :=
    match t with
    | 0x2D :: rest => ([0x2D], rest)
    | _ => ([], t)
  let (whole, t) ← readWhole t
  let (fraction, t) ← readFraction t
  let (exponent, t) ← readExponent t
  return (sign ++ whole ++ fraction ++ exponent, t)

def maxDepth : Nat := 10000

mutual

/-- A value at the front of a text without blanks before it; `depth` more levels may be opened. -/
def readValue : Nat → Nat → Text → Option (Json × Text)
  | 0, _, _ => none
  | steps + 1, depth, t =>
    match t with
    | [] => none
    | b :: rest =>
      if b == 0x22 then (readString rest).map fun (s, rest) => (.string s, rest)
      else if b == 0x5B then
        if depth == 0 then none
        else
          match skipSpace rest with
          | 0x5D :: rest => some (.array [], rest)
          | rest => (readItems steps (depth - 1) rest).map fun (items, rest) => (.array items, rest)
      else if b == 0x7B then
        if depth == 0 then none
        else
          match skipSpace rest with
          | 0x7D :: rest => some (.object [], rest)
          | rest =>
            (readMembers steps (depth - 1) rest).map fun (members, rest) => (.object members, rest)
      else if t.startsWith "null" then some (.null, t.drop 4)
      else if t.startsWith "true" then some (.bool true, t.drop 4)
      else if t.startsWith "false" then some (.bool false, t.drop 5)
      else (readNumber t).map fun (literal, rest) => (.number literal, rest)

def readItems : Nat → Nat → Text → Option (List Json × Text)
  | 0, _, _ => none
  | steps + 1, depth, t =>
    match readValue steps depth t with
    | none => none
    | some (item, rest) =>
      match skipSpace rest with
      | 0x5D :: rest => some ([item], rest)
      | 0x2C :: rest =>
        (readItems steps depth (skipSpace rest)).map fun (items, rest) => (item :: items, rest)
      | _ => none

def readMembers : Nat → Nat → Text → Option (List (Text × Json) × Text)
  | 0, _, _ => none
  | steps + 1, depth, t =>
    match t with
    | 0x22 :: rest =>
      match readString rest with
      | none => none
      | some (name, rest) =>
        match skipSpace rest with
        | 0x3A :: rest =>
          match readValue steps depth (skipSpace rest) with
          | none => none
          | some (value, rest) =>
            match skipSpace rest with
            | 0x7D :: rest => some ([(name, value)], rest)
            | 0x2C :: rest =>
              (readMembers steps depth (skipSpace rest)).map fun (members, rest) =>
                ((name, value) :: members, rest)
            | _ => none
        | _ => none
    | _ => none

end

/-- The value that a text holds, and nothing else but blanks around it. -/
def parse? (t : Text) : Option Json :=
  match readValue (2 * t.length + 2) maxDepth (skipSpace t) with
  | some (value, rest) => if (skipSpace rest).isEmpty then some value else none
  | none => none

end ScriptAtlas.Json
