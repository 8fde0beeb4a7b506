import ScriptAtlas.Text.Quoted
import ScriptAtlas.Yaml.Basic

/-!
Flags on the command line: `--name value`, `--name=value`, and one letter behind a single dash. A
switch takes no value unless one is given with `=`. Flags may stand anywhere; `--` ends them.
-/

namespace ScriptAtlas

inductive FlagKind where
  | word
  | number
  | switch
  /-- Words with commas between them; a repeated flag adds to them. -/
  | list
  deriving DecidableEq, Repr

inductive FlagValue where
  | word (t : Text)
  | number (n : Int)
  | switch (b : Bool)
  | list (ts : List Text)
  deriving DecidableEq, Repr

structure Flag where
  name : Text
  letter : Option UInt8 := none
  kind : FlagKind
  about : Text := []
  /-- The value without it, where help shows one. -/
  standard : Option FlagValue := none
  deriving DecidableEq, Repr

inductive FlagFault where
  | notNumber (t : Text)
  | numberOutOfRange (t : Text)
  | notSwitch (t : Text)
  /-- A quote inside a word that does not begin with one. -/
  | strayQuote (column : Nat)
  /-- A quoted word that does not end where it should. -/
  | brokenQuote (column : Nat)
  deriving DecidableEq, Repr

def FlagFault.message : FlagFault → Text
  | notNumber t => "strconv.ParseInt: parsing " ++ t.quoted ++ ": invalid syntax"
  | numberOutOfRange t => "strconv.ParseInt: parsing " ++ t.quoted ++ ": value out of range"
  | notSwitch t => "strconv.ParseBool: parsing " ++ t.quoted ++ ": invalid syntax"
  | strayQuote column =>
    "parse error on line 1, column " ++ Text.ofNat column ++ ": bare \" in non-quoted field"
  | brokenQuote column =>
    "parse error on line 1, column " ++ Text.ofNat column ++
      ": extraneous or missing \" in quoted-field"

inductive FlagError where
  | unknown (name : Text)
  | unknownLetter (letter : UInt8) (group : Text)
  | noValue (given : Text)
  | noLetterValue (letter : UInt8) (group : Text)
  | badSyntax (given : Text)
  | invalid (flag : Flag) (value : Text) (fault : FlagFault)
  deriving DecidableEq, Repr

def quotedLetter (b : UInt8) : Text :=
  [0x27, b, 0x27]

def Flag.shown (f : Flag) : Text :=
  match f.letter with
  | none => "--" ++ f.name
  | some letter => 0x2D :: letter :: ", --" ++ f.name

def FlagError.message : FlagError → Text
  | unknown name => "unknown flag: --" ++ name
  | unknownLetter letter group =>
    "unknown shorthand flag: " ++ quotedLetter letter ++ " in -" ++ group
  | noValue given => "flag needs an argument: " ++ given
  | noLetterValue letter group =>
    "flag needs an argument: " ++ quotedLetter letter ++ " in -" ++ group
  | badSyntax given => "bad flag syntax: " ++ given
  | invalid flag value fault =>
    "invalid argument " ++ value.quoted ++ " for " ++ flag.shown.quoted ++ " flag: " ++
      fault.message

/-- Flags that were set, by name, and the other arguments. -/
structure Arguments where
  flags : List (Text × FlagValue) := []
  rest : List Text := []
  deriving DecidableEq, Repr

namespace Arguments

def flag? (a : Arguments) (name : Text) : Option FlagValue :=
  (a.flags.find? fun (n, _) => n == name).map Prod.snd

def word (a : Arguments) (name : String) (fallback : Text) : Text :=
  match a.flag? name with
  | some (.word t) => t
  | _ => fallback

def number (a : Arguments) (name : String) (fallback : Int) : Int :=
  match a.flag? name with
  | some (.number n) => n
  | _ => fallback

def switch (a : Arguments) (name : String) : Bool :=
  a.flag? name == some (.switch true)

def list (a : Arguments) (name : String) : List Text :=
  match a.flag? name with
  | some (.list ts) => ts
  | _ => []

end Arguments

namespace Flag

/-! ### Values -/

/-- Whether a text has the form of a number, whatever its size. -/
def looksLikeNumber (t : Text) : Bool :=
  (Yaml.natural? (Yaml.signed t).2).isSome

def numberOf (t : Text) : Except FlagFault Int :=
  match Yaml.wholeNumber? t with
  | some n => .ok n
  | none => .error (if looksLikeNumber t then .numberOutOfRange t else .notNumber t)

def switchOf (t : Text) : Except FlagFault Bool :=
  if (Text.ofStrings ["1", "t", "T", "TRUE", "true", "True"]).elem t then .ok true
  else if (Text.ofStrings ["0", "f", "F", "FALSE", "false", "False"]).elem t then .ok false
  else .error (.notSwitch t)

/-- A quoted word from its second byte on: its text, and what follows the closing quote. -/
def quotedWord : Text → Option (Text × Text)
  | [] => none
  | b :: rest =>
    if b == 0x22 then
      match rest with
      | 0x22 :: more => (quotedWord more).map fun (t, after) => (0x22 :: t, after)
      | _ => some ([], rest)
    else (quotedWord rest).map fun (t, after) => (b :: t, after)

/-- Words with commas between them, from a column on, in at most `steps` words. -/
def listFrom : Nat → Nat → Text → Except FlagFault (List Text)
  | 0, _, _ => .ok []
  | steps + 1, column, t =>
    match t with
    | 0x22 :: rest =>
      match quotedWord rest with
      | none => .error (.brokenQuote (column + t.length))
      | some (word, []) => .ok [word]
      | some (word, b :: after) =>
        if b == 0x2C then
          (listFrom steps (column + (t.length - after.length)) after).map (word :: ·)
        else .error (.brokenQuote (column + (t.length - after.length) - 2))
    | t =>
      let word := t.takeWhile (· != 0x2C)
      match word.idxOf? 0x22 with
      | some i => .error (.strayQuote (column + i))
      | none =>
        match t.drop word.length with
        | [] => .ok [word]
        | _ :: after => (listFrom steps (column + word.length + 1) after).map (word :: ·)

def listOf (t : Text) : Except FlagFault (List Text) :=
  if t.isEmpty then .ok [] else listFrom (t.length + 1) 1 t

def value (f : Flag) (before : Option FlagValue) (t : Text) : Except FlagFault FlagValue :=
  match f.kind with
  | .word => .ok (.word t)
  | .number => (numberOf t).map .number
  | .switch => (switchOf t).map .switch
  | .list => do
    let words ← listOf t
    match before with
    | some (.list known) => return .list (known ++ words)
    | _ => return .list words

def set (f : Flag) (t : Text) (a : Arguments) : Except FlagError Arguments :=
  match f.value (a.flag? f.name) t with
  | .error fault => .error (.invalid f t fault)
  | .ok v => .ok { a with flags := (f.name, v) :: a.flags.filter fun (n, _) => n != f.name }

/-! ### Arguments -/

def byName? (flags : List Flag) (name : Text) : Option Flag :=
  flags.find? fun f => f.name == name

def byLetter? (flags : List Flag) (letter : UInt8) : Option Flag :=
  flags.find? fun f => f.letter == some letter

def isSwitch (f : Option Flag) : Bool :=
  (f.map Flag.kind) == some .switch

def readLong (flags : List Flag) (given : Text) (rest : List Text) (a : Arguments) :
    Except FlagError (Arguments × List Text) :=
  let body := given.drop 2
  let name := body.takeWhile (· != 0x3D)
  if body.head? == some 0x2D || body.head? == some 0x3D then .error (.badSyntax given)
  else
    match byName? flags name with
    | none => .error (.unknown name)
    | some f =>
      match body.drop name.length, f.kind, rest with
      | _ :: t, _, rest => (f.set t a).map (·, rest)
      | [], .switch, rest => (f.set "true" a).map (·, rest)
      | [], _, t :: rest => (f.set t a).map (·, rest)
      | [], _, [] => .error (.noValue given)

def readLetters (flags : List Flag) : Text → List Text → Arguments →
    Except FlagError (Arguments × List Text)
  | [], rest, a => .ok (a, rest)
  | letter :: more, rest, a =>
    match byLetter? flags letter with
    | none => .error (.unknownLetter letter (letter :: more))
    | some f =>
      match more, f.kind, rest with
      | 0x3D :: t :: ts, _, rest => (f.set (t :: ts) a).map (·, rest)
      | more, .switch, rest =>
        match f.set "true" a with
        | .error e => .error e
        | .ok a => readLetters flags more rest a
      | t :: ts, _, rest => (f.set (t :: ts) a).map (·, rest)
      | [], _, t :: rest => (f.set t a).map (·, rest)
      | [], _, [] => .error (.noLetterValue letter [letter])

def readFrom (flags : List Flag) : Nat → List Text → Arguments → Except FlagError Arguments
  | 0, _, a => .ok a
  | _ + 1, [], a => .ok a
  | steps + 1, given :: rest, a =>
    match given with
    | 0x2D :: 0x2D :: [] => .ok { a with rest := a.rest ++ rest }
    | 0x2D :: 0x2D :: _ => do
      let (a, rest) ← readLong flags given rest a
      readFrom flags steps rest a
    | 0x2D :: letter :: letters => do
      let (a, rest) ← readLetters flags (letter :: letters) rest a
      readFrom flags steps rest a
    | word => readFrom flags steps rest { a with rest := a.rest ++ [word] }

def read (flags : List Flag) (given : List Text) : Except FlagError Arguments :=
  readFrom flags given.length given {}

/-- Whether an argument is a flag whose value is the next argument. -/
def takesNext (flags : List Flag) (given : Text) : Bool :=
  match given with
  | 0x2D :: 0x2D :: name => !given.elem 0x3D && !isSwitch (byName? flags name)
  | [0x2D, letter] => letter != 0x3D && !isSwitch (byLetter? flags letter)
  | _ => false

/-- The words of a command line that are neither flags nor values of flags. -/
def words (flags : List Flag) : List Text → List Text
  | [] => []
  | given :: rest =>
    if given == Text.ofString "--" then []
    else if takesNext flags given then
      match rest with
      | [] | [_] => []
      | _ :: rest => words flags rest
    else if given.isEmpty || given.head? == some 0x2D then words flags rest
    else given :: words flags rest

/-- A command line without the first word that is `word`. -/
def without (flags : List Flag) (word : Text) : List Text → List Text
  | [] => []
  | given :: rest =>
    if given == Text.ofString "--" then given :: rest
    else if takesNext flags given then
      match rest with
      | [] => [given]
      | value :: rest => given :: value :: without flags word rest
    else if given == word then rest
    else given :: without flags word rest

end Flag

end ScriptAtlas
