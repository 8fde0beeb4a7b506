import ScriptAtlas.Text.Quoted

/-!
Versions of three numbers with an optional stage before release (`-beta.1`) and build (`+7`). Missing
numbers read as zero and a `v` may stand in front.
-/

namespace ScriptAtlas

structure Version where
  major : Nat
  minor : Nat
  patch : Nat
  stage : Text := []
  build : Text := []
  deriving DecidableEq, Repr

inductive VersionError where
  | malformed
  | numberOutOfRange (digits : Text)
  | leadingZero
  deriving DecidableEq, Repr

def VersionError.message : VersionError → Text
  | malformed => "Invalid Semantic Version"
  | numberOutOfRange digits =>
    "Error parsing version segment: strconv.ParseUint: parsing " ++ digits.quoted ++
      ": value out of range"
  | leadingZero => "Version segment starts with 0"

namespace Version

def zero : Version :=
  ⟨0, 0, 0, [], []⟩

def dot : UInt8 := 0x2E

def isSegmentByte (b : UInt8) : Bool :=
  Text.isDigit b || (0x41 ≤ b && b ≤ 0x5A) || (0x61 ≤ b && b ≤ 0x7A) || b == 0x2D

def areSegments (t : Text) : Bool :=
  (t.splitAt dot).all fun segment => !segment.isEmpty && segment.all isSegmentByte

/-- Digits with a dot in front, if they stand there. -/
def readMore (t : Text) : Text × Text :=
  match t with
  | b :: rest =>
    let digits := rest.takeWhile Text.isDigit
    if b == dot && !digits.isEmpty then (digits, rest.drop digits.length) else ([], t)
  | [] => ([], [])

/-- A number below 2^64; no digits read as zero. -/
def number (digits : Text) : Except VersionError Nat :=
  let n := Text.digitsValue digits
  if n < 18446744073709551616 then .ok n else .error (.numberOutOfRange digits)

def readTail (t : Text) : Option (Text × Text) :=
  match t with
  | [] => some ([], [])
  | 0x2B :: build => if areSegments build then some ([], build) else none
  | 0x2D :: rest =>
    let stage := rest.takeWhile (· != 0x2B)
    let after := rest.drop stage.length
    if !areSegments stage then none
    else
      match after with
      | [] => some (stage, [])
      | _ :: build => if areSegments build then some (stage, build) else none
  | _ => none

/-- A number of a stage has no zero in front. -/
def checkStage (stage : Text) : Except VersionError Unit :=
  if (stage.splitAt dot).any fun segment =>
      segment.all Text.isDigit && decide (1 < segment.length) && segment.head? == some 0x30
  then .error .leadingZero
  else .ok ()

def parse (t : Text) : Except VersionError Version :=
  let t := t.withoutFront "v"
  let major := t.takeWhile Text.isDigit
  let (minor, rest) := readMore (t.drop major.length)
  let (patch, rest) := readMore rest
  match major.isEmpty, readTail rest with
  | false, some (stage, build) => do
    let major ← number major
    let minor ← number minor
    let patch ← number patch
    checkStage stage
    return ⟨major, minor, patch, stage, build⟩
  | _, _ => .error .malformed

def text (v : Version) : Text :=
  Text.ofNat v.major ++ dot :: Text.ofNat v.minor ++ dot :: Text.ofNat v.patch ++
  (if v.stage.isEmpty then [] else 0x2D :: v.stage) ++
  (if v.build.isEmpty then [] else 0x2B :: v.build)

def segmentNumber? (segment : Text) : Option Nat :=
  if !segment.isEmpty && segment.all Text.isDigit then (number segment).toOption else none

/-- Segments of a stage: numbers come before words. -/
def compareSegment (s t : Text) : Ordering :=
  if s == t then .eq
  else
    match segmentNumber? s, segmentNumber? t with
    | none, none => if Text.before t s then .gt else .lt
    | some _, none => .lt
    | none, some _ => .gt
    | some m, some n => if n < m then .gt else .lt

/-- Segment by segment; the stage that ends first comes first. -/
def compareSegments : List Text → List Text → Ordering
  | [], [] => .eq
  | [], _ :: _ => .lt
  | _ :: _, [] => .gt
  | s :: ss, t :: ts =>
    match compareSegment s t with
    | .eq => compareSegments ss ts
    | order => order

def compareStage (s t : Text) : Ordering :=
  match s.isEmpty, t.isEmpty with
  | true, true => .eq
  | true, false => .gt
  | false, true => .lt
  | false, false => compareSegments (s.splitAt dot) (t.splitAt dot)

/-- The order of versions; the build does not count. -/
def compare (v w : Version) : Ordering :=
  (Ord.compare v.major w.major).then <| (Ord.compare v.minor w.minor).then <|
    (Ord.compare v.patch w.patch).then (compareStage v.stage w.stage)

def isBefore (v w : Version) : Bool :=
  v.compare w == .lt

def isSame (v w : Version) : Bool :=
  v.compare w == .eq

end Version

end ScriptAtlas
