import ScriptAtlas.Text.Basic
import ScriptAtlas.Text.CasePartners

/-!
Letter case. Characters map one to one; a stray byte of the text becomes U+FFFD.
-/

namespace ScriptAtlas.Text

def upperByte (b : UInt8) : UInt8 :=
  if 0x61 ≤ b && b ≤ 0x7A then b - 0x20 else b

def lowerByte (b : UInt8) : UInt8 :=
  if 0x41 ≤ b && b ≤ 0x5A then b + 0x20 else b

def upperChar (c : Char) : Char :=
  if c.toNat < 0x80 then c.toUpper else Char.ofNat (partnerIn upperRuns c.toNat)

def lowerChar (c : Char) : Char :=
  if c.toNat < 0x80 then c.toLower else Char.ofNat (partnerIn lowerRuns c.toNat)

def isAscii (t : Text) : Bool :=
  t.all (· < 0x80)

def upper (t : Text) : Text :=
  if t.isAscii then t.map upperByte else ofChars (t.chars.map upperChar)

def lower (t : Text) : Text :=
  if t.isAscii then t.map lowerByte else ofChars (t.chars.map lowerChar)

/-- The representative of a character among those that differ from it by case alone. Beyond ASCII only
the long s and the kelvin sign are cased like a letter of a name. -/
def foldChar (c : Char) : Char :=
  if c == '\u017F' then 's' else if c == '\u212A' then 'k' else c.toLower

def sameName (s t : Text) : Bool :=
  s.chars.map foldChar == t.chars.map foldChar

def hasName (names : List Text) (name : Text) : Bool :=
  names.any fun known => sameName known name

end ScriptAtlas.Text
