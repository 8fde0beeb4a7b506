import ScriptAtlas.Json.Reader
import ScriptAtlas.Text.Quoted

/-!
Where a text stops to be JSON. The text is followed byte by byte through the places of the grammar; the
first byte that fits none of the continuations is the fault.
-/

namespace ScriptAtlas

inductive JsonFault where
  | unexpected (byte : UInt8) (place : Text)
  | endOfInput
  | tooDeep
  deriving DecidableEq, Repr

def JsonFault.quotedByte (b : UInt8) : Text :=
  if b == 0x27 then "'\\''"
  else if b == 0x22 then "'\"'"
  else ("'" : Text) ++ Text.quoteGlyph (.char (Char.ofNat b.toNat)) ++ "'"

def JsonFault.message : JsonFault → Text
  | unexpected b place => "invalid character " ++ quotedByte b ++ " " ++ place
  | endOfInput => "unexpected end of JSON input"
  | tooDeep => "exceeded max depth"

namespace Json

inductive Frame where
  | key
  | value
  | item
  deriving DecidableEq, Repr

inductive Place where
  | value
  | firstItem
  | firstKey
  | key
  | after
  | string
  | escape
  /-- So many hexadecimal digits. -/
  | hex (left : Nat)
  | minus
  | whole
  | zero
  | point
  | fraction
  | exponent
  | exponentDigit
  | exponentDigits
  | word (name : Text) (left : Text)
  deriving DecidableEq, Repr

structure Progress where
  place : Place := .value
  frames : List Frame := []
  deriving DecidableEq, Repr

namespace Progress

def enter (p : Progress) (frame : Frame) (place : Place) : Except JsonFault Progress :=
  if p.frames.length < maxDepth then .ok ⟨place, frame :: p.frames⟩ else .error .tooDeep

def begin (p : Progress) (b : UInt8) : Except JsonFault Progress :=
  if isSpace b then .ok { p with place := .value }
  else if b == 0x7B then p.enter .key .firstKey
  else if b == 0x5B then p.enter .item .firstItem
  else if b == 0x22 then .ok { p with place := .string }
  else if b == 0x2D then .ok { p with place := .minus }
  else if b == 0x30 then .ok { p with place := .zero }
  else if Text.isDigit b then .ok { p with place := .whole }
  else if b == 0x74 then .ok { p with place := .word "true" "rue" }
  else if b == 0x66 then .ok { p with place := .word "false" "alse" }
  else if b == 0x6E then .ok { p with place := .word "null" "ull" }
  else .error (.unexpected b "looking for beginning of value")

def goOn (p : Progress) (b : UInt8) : Except JsonFault Progress :=
  let p := { p with place := .after }
  if isSpace b then .ok p
  else
    match p.frames with
    | [] => .error (.unexpected b "after top-level value")
    | .key :: outer =>
      if b == 0x3A then .ok ⟨.value, .value :: outer⟩
      else .error (.unexpected b "after object key")
    | .value :: outer =>
      if b == 0x2C then .ok ⟨.key, .key :: outer⟩
      else if b == 0x7D then .ok ⟨.after, outer⟩
      else .error (.unexpected b "after object key:value pair")
    | .item :: outer =>
      if b == 0x2C then .ok { p with place := .value }
      else if b == 0x5D then .ok ⟨.after, outer⟩
      else .error (.unexpected b "after array element")

def beginKey (p : Progress) (b : UInt8) : Except JsonFault Progress :=
  if b == 0x22 then .ok { p with place := .string }
  else .error (.unexpected b "looking for beginning of object key string")

def afterDigits (p : Progress) (b : UInt8) : Except JsonFault Progress :=
  if b == 0x65 || b == 0x45 then .ok { p with place := .exponent } else p.goOn b

def afterWhole (p : Progress) (b : UInt8) : Except JsonFault Progress :=
  if b == 0x2E then .ok { p with place := .point } else p.afterDigits b

def exponentDigit (p : Progress) (b : UInt8) : Except JsonFault Progress :=
  if Text.isDigit b then .ok { p with place := .exponentDigits }
  else .error (.unexpected b "in exponent of numeric literal")

def step (p : Progress) (b : UInt8) : Except JsonFault Progress :=
  match p.place with
  | .value => p.begin b
  | .firstItem =>
    if isSpace b then .ok p
    else if b == 0x5D then .ok ⟨.after, p.frames.drop 1⟩
    else p.begin b
  | .firstKey =>
    if isSpace b then .ok p
    else if b == 0x7D then .ok ⟨.after, p.frames.drop 1⟩
    else p.beginKey b
  | .key => if isSpace b then .ok p else p.beginKey b
  | .after => p.goOn b
  | .string =>
    if b == 0x22 then .ok { p with place := .after }
    else if b == 0x5C then .ok { p with place := .escape }
    else if b < 0x20 then .error (.unexpected b "in string literal")
    else .ok p
  | .escape =>
    if b == 0x75 then .ok { p with place := .hex 3 }
    else if (escaped? b).isSome then .ok { p with place := .string }
    else .error (.unexpected b "in string escape code")
  | .hex left =>
    if (hexValue? b).isNone then .error (.unexpected b "in \\u hexadecimal character escape")
    else
      match left with
      | 0 => .ok { p with place := .string }
      | left + 1 => .ok { p with place := .hex left }
  | .minus =>
    if b == 0x30 then .ok { p with place := .zero }
    else if Text.isDigit b then .ok { p with place := .whole }
    else .error (.unexpected b "in numeric literal")
  | .whole => if Text.isDigit b then .ok p else p.afterWhole b
  | .zero => p.afterWhole b
  | .point =>
    if Text.isDigit b then .ok { p with place := .fraction }
    else .error (.unexpected b "after decimal point in numeric literal")
  | .fraction => if Text.isDigit b then .ok p else p.afterDigits b
  | .exponent =>
    if b == 0x2B || b == 0x2D then .ok { p with place := .exponentDigit } else p.exponentDigit b
  | .exponentDigit => p.exponentDigit b
  | .exponentDigits => if Text.isDigit b then .ok p else p.goOn b
  | .word name left =>
    match left with
    | [] => p.goOn b
    | expected :: rest =>
      if b != expected then
        .error (.unexpected b
          ("in literal " ++ name ++ " (expecting " ++ JsonFault.quotedByte expected ++ ")"))
      else if rest.isEmpty then .ok { p with place := .after }
      else .ok { p with place := .word name rest }

def isDone (p : Progress) : Bool :=
  p.place == .after && p.frames.isEmpty

end Progress

/-- What is wrong with a text, unless it is JSON. The end counts as a blank. -/
def fault? (t : Text) : Option JsonFault :=
  match (t ++ [0x20]).foldlM Progress.step {} with
  | .error e => some e
  | .ok p => if p.isDone then none else some .endOfInput

end Json

end ScriptAtlas
