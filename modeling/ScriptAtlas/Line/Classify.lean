import ScriptAtlas.Line.Basic
import ScriptAtlas.Line.Vocabulary
import ScriptAtlas.Text.Case

/-!
Classification of lines. Each line is classified on its own, from its text and position alone.
-/

namespace ScriptAtlas

open Vocabulary

namespace Line

/-- Openers minus closers in upper-cased code: each `BEGIN` that starts no transaction and each `CASE`
opens, each `END` closes. -/
def nestingOf (code : Text) : Int :=
  let control := (Pattern.edge ++ beginTransaction).substitute " " code
  ((beginWord.all control).length + (caseWord.all control).length : Int) -
    (endWord.all control).length

def parensOf (code : Text) : Int :=
  (code.count 0x28 : Int) - code.count 0x29

/-- A comment on a line of its own, or a line of a block comment. -/
def isCommentText (trimmed : Text) : Bool :=
  trimmed.startsWith "--" || trimmed.startsWith "/*" || trimmed.startsWith "*" ||
    (trimmed.endsWith "*/" && !trimmed.contains "/*")

/-- A long comment made mostly of repeated punctuation. -/
def isSectionText (trimmed : Text) : Bool :=
  if trimmed.length ≤ 20 then false
  else
    let body := ((trimmed.withoutFront "--").withoutFront "/*").withoutBack "*/"
    if !sectionRun.occurs body then false
    else
      let visible := body.chars.filter fun c => !Text.isBlankChar c
      visible.length ≤ 2 * (visible.filter fun c => sectionChars.elem c).length

inductive Inside where
  | code
  | literal
  /-- A block comment; `closing` when its end mark has been read up to the last byte. -/
  | comment (closing : Bool)
  deriving DecidableEq, Repr

/-- Code without comments and with the contents of literals left out, in its own case, and whether a
literal stays open at the end. -/
def stripFrom : Inside → Text → Text × Bool
  | .literal, [] => ([], true)
  | _, [] => ([], false)
  | .literal, b :: rest =>
    if b == 0x27 then
      let (code, opened) := stripFrom .code rest
      (b :: code, opened)
    else stripFrom .literal rest
  | .comment true, _ :: rest => stripFrom .code rest
  | .comment false, b :: rest =>
    if b == 0x2A && rest.head? == some 0x2F then stripFrom (.comment true) rest
    else stripFrom (.comment false) rest
  | .code, b :: rest =>
    -- A quote that is doubled inside a literal closes it and opens the next one.
    if b == 0x27 then
      let (code, opened) := stripFrom .literal rest
      (b :: code, opened)
    else if b == 0x2D && rest.head? == some 0x2D then ([], false)
    else if b == 0x2F && rest.head? == some 0x2A then
      -- A comment becomes one blank; one that does not close ends the code.
      if Text.contains (rest.drop 1) "*/" then
        match rest with
        | _ :: rest' =>
          let (code, opened) := stripFrom (.comment false) rest'
          (0x20 :: code, opened)
        | [] => ([], false)
      else ([], false)
    else
      let (code, opened) := stripFrom .code rest
      (b :: code, opened)

def strip (trimmed : Text) : Text × Bool :=
  let (code, opened) := stripFrom .code trimmed
  (code.trim, opened)

/-- Adds names that are not there yet, up to case. -/
def addNames (names new : List Text) : List Text :=
  new.foldl (fun known name => if Text.hasName known name then known else known ++ [name]) names

def firstMarked (p : Pattern) (code : Text) : List Text :=
  (p.all code).filterMap fun hit => hit.marked.head?

/-- The first marked part of each occurrence whose second marked part can be a type. -/
def typedNames (p : Pattern) (code : Text) : List Text :=
  (p.all code).filterMap fun hit =>
    match hit.marked with
    | name :: type :: _ => if notTypes.elem type.upper then none else some name
    | _ => none

def declarationsOf (code upper : Text) : List Text :=
  let listed := upper.contains "DECLARE" || code.startsWith "," || code.startsWith "@"
  addNames [] (firstMarked declaredVariable code ++ firstMarked declaredCursor code ++
    typedNames routineParameter code ++
    if listed && !executeAnyCase.occurs code then typedNames listedVariable code else [])

def variablesOf (code : Text) : List Text :=
  addNames [] (((usedVariable.all code).map Pattern.Hit.text).filter fun v => !v.startsWith "@@")

def tablesOf (code upper : Text) : List Text :=
  if upper.contains "FETCH" then []
  else
    addNames [] ((firstMarked tableReference code ++ firstMarked deletedTable code).filter fun name =>
      !notTables.elem name.upper)

def businessOf (upper : Text) : List Text :=
  (businessFunctions.filter fun (_, pattern) => pattern.occurs upper).map Prod.fst

def controlOf (code : Text) : List Text :=
  ((controlWord.all ((Pattern.edge ++ beginTransaction).substitute " " code)).map
    Pattern.Hit.text).eraseDups

def ofCode (code : Text) : Line :=
  let upper := code.upper
  let tags := rules.map fun rule => rule.tags upper
  let control := controlOf upper
  { code := upper
    operations := tags.flatten.eraseDups
    control := control
    declared := declarationsOf code upper
    used := variablesOf code
    tables := tablesOf code upper
    nesting := nestingOf upper
    parens := parensOf code
    weight :=
      (rules.zip tags).foldr (fun (rule, tags) sum => rule.weightOf tags.length + sum) 0 +
      control.foldr (fun word sum => controlWeight word + sum) 0 }

/-- Classifies a line at a position. The flag tells that a literal stays open at its end. -/
def read (raw : Text) (index : Int) : Line × Bool :=
  let trimmed := raw.trim
  let upper := trimmed.upper
  if trimmed.isEmpty then
    ({ index, raw, trimmed, upper, isEmpty := true }, false)
  else if isCommentText trimmed then
    ({ index, raw, trimmed, upper, isComment := true, isSectionMarker := isSectionText trimmed,
       business := businessOf upper }, false)
  else
    let (code, opened) := strip trimmed
    ({ ofCode code with index, raw, trimmed, upper, business := businessOf upper }, opened)

def classify (raw : Text) (index : Int) : Line :=
  (read raw index).1

end Line

structure Warning where
  line : Int
  message : Text
  deriving DecidableEq, Repr

structure Reading where
  script : Script
  warnings : List Warning
  deriving DecidableEq, Repr

namespace Script

/-- Splits content into lines at line feeds, with or without a carriage return in front. -/
def splitLines (content : Text) : List Text :=
  if content.isEmpty then []
  -- A line end at the very end starts no further line.
  else Text.splitAt 0x0A ((content.replace "\r\n" "\n").withoutBack "\n")

def readFrom : Nat → List Text → List (Line × Bool)
  | _, [] => []
  | index, raw :: rest => Line.read raw index :: readFrom (index + 1) rest

def openLiteral : Text :=
  "string literal continues past end of line; keywords after the quote were ignored"

def read (lines : List Text) : Reading :=
  let readings := readFrom 0 lines
  { script := (readings.map Prod.fst).toArray
    warnings := readings.filterMap fun (line, opened) =>
      if opened then some ⟨line.number, openLiteral⟩ else none }

def ofLines (lines : List Text) : Script :=
  (read lines).script

def blankLines (s : Script) : Nat :=
  s.toList.countP Line.isEmpty

def commentLines (s : Script) : Nat :=
  s.toList.countP fun l => !l.isEmpty && l.isComment

def codeLines (s : Script) : Nat :=
  s.toList.countP Line.isCode

end Script

end ScriptAtlas
