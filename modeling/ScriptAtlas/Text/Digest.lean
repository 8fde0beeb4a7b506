import ScriptAtlas.Text.Quoted

/-!
The SHA-256 digest of a text, which tells whether a script changed.
-/

namespace ScriptAtlas

structure Digest where
  bytes : Text
  length_bytes : bytes.length = 32
  deriving DecidableEq, Repr

namespace Digest

def zero : Digest :=
  ⟨List.replicate 32 0, List.length_replicate⟩

/-- The bytes of a blob; one of another length is cut, or filled up with zeros. -/
def ofBytes (blob : Text) : Digest :=
  ⟨(blob ++ zero.bytes).take 32, by simp [zero.length_bytes]⟩

theorem ofBytes_bytes (d : Digest) : ofBytes d.bytes = d := by
  cases d
  rw [ofBytes, mk.injEq]
  exact List.take_left' ‹_›

def hex (d : Digest) : Text :=
  d.bytes.flatMap fun b => Text.hex 2 b.toNat

def roundConstants : List UInt32 := [
  0x428a2f98, 0x71374491, 0xb5c0fbcf, 0xe9b5dba5, 0x3956c25b, 0x59f111f1, 0x923f82a4, 0xab1c5ed5,
  0xd807aa98, 0x12835b01, 0x243185be, 0x550c7dc3, 0x72be5d74, 0x80deb1fe, 0x9bdc06a7, 0xc19bf174,
  0xe49b69c1, 0xefbe4786, 0x0fc19dc6, 0x240ca1cc, 0x2de92c6f, 0x4a7484aa, 0x5cb0a9dc, 0x76f988da,
  0x983e5152, 0xa831c66d, 0xb00327c8, 0xbf597fc7, 0xc6e00bf3, 0xd5a79147, 0x06ca6351, 0x14292967,
  0x27b70a85, 0x2e1b2138, 0x4d2c6dfc, 0x53380d13, 0x650a7354, 0x766a0abb, 0x81c2c92e, 0x92722c85,
  0xa2bfe8a1, 0xa81a664b, 0xc24b8b70, 0xc76c51a3, 0xd192e819, 0xd6990624, 0xf40e3585, 0x106aa070,
  0x19a4c116, 0x1e376c08, 0x2748774c, 0x34b0bcb5, 0x391c0cb3, 0x4ed8aa4a, 0x5b9cca4f, 0x682e6ff3,
  0x748f82ee, 0x78a5636f, 0x84c87814, 0x8cc70208, 0x90befffa, 0xa4506ceb, 0xbef9a3f7, 0xc67178f2]

structure State where
  a : UInt32
  b : UInt32
  c : UInt32
  d : UInt32
  e : UInt32
  f : UInt32
  g : UInt32
  h : UInt32
  deriving DecidableEq, Repr

def State.start : State :=
  ⟨0x6a09e667, 0xbb67ae85, 0x3c6ef372, 0xa54ff53a, 0x510e527f, 0x9b05688c, 0x1f83d9ab, 0x5be0cd19⟩

def rotate (x : UInt32) (n : UInt32) : UInt32 :=
  (x >>> n) ||| (x <<< (32 - n))

def State.round (s : State) (constant word : UInt32) : State :=
  let s1 := rotate s.e 6 ^^^ rotate s.e 11 ^^^ rotate s.e 25
  let ch := (s.e &&& s.f) ^^^ (~~~s.e &&& s.g)
  let t1 := s.h + s1 + ch + constant + word
  let s0 := rotate s.a 2 ^^^ rotate s.a 13 ^^^ rotate s.a 22
  let maj := (s.a &&& s.b) ^^^ (s.a &&& s.c) ^^^ (s.b &&& s.c)
  ⟨t1 + (s0 + maj), s.a, s.b, s.c, s.d + t1, s.e, s.f, s.g⟩

def State.add (s t : State) : State :=
  ⟨s.a + t.a, s.b + t.b, s.c + t.c, s.d + t.d, s.e + t.e, s.f + t.f, s.g + t.g, s.h + t.h⟩

def words : Text → List UInt32
  | p :: q :: r :: s :: rest =>
    ((p.toUInt32 <<< 24) ||| (q.toUInt32 <<< 16) ||| (r.toUInt32 <<< 8) ||| s.toUInt32) :: words rest
  | _ => []

def nextWord (w : Array UInt32) : UInt32 :=
  let at_ (back : Nat) : UInt32 := w.getD (w.size - back) 0
  let w15 := at_ 15
  let w2 := at_ 2
  let s0 := rotate w15 7 ^^^ rotate w15 18 ^^^ (w15 >>> 3)
  let s1 := rotate w2 17 ^^^ rotate w2 19 ^^^ (w2 >>> 10)
  at_ 16 + s0 + at_ 7 + s1

def schedule (block : Text) : Array UInt32 :=
  (List.range 48).foldl (fun w _ => w.push (nextWord w)) (words block).toArray

def State.absorb (s : State) (block : Text) : State :=
  s.add ((roundConstants.zip (schedule block).toList).foldl (fun t (k, w) => t.round k w) s)

def State.absorbAll : Nat → Text → State → State
  | 0, _, s => s
  | count + 1, t, s => State.absorbAll count (t.drop 64) (s.absorb (t.take 64))

def bigEndian : Nat → Nat → Text
  | 0, _ => []
  | width + 1, n => bigEndian width (n / 256) ++ [(n % 256).toUInt8]

@[simp]
theorem length_bigEndian (width n : Nat) : (bigEndian width n).length = width := by
  induction width generalizing n with
  | zero => rfl
  | succ width ih => simp [bigEndian, ih]

/-- The message with its end mark and length, a whole number of blocks. -/
def padded (t : Text) : Text :=
  t ++ [0x80] ++ List.replicate ((119 - t.length % 64) % 64) 0 ++ bigEndian 8 (t.length * 8)

def ofText (t : Text) : Digest :=
  let message := padded t
  let s := State.start.absorbAll (message.length / 64) message
  ⟨[s.a, s.b, s.c, s.d, s.e, s.f, s.g, s.h].flatMap fun w => bigEndian 4 w.toNat, by simp⟩

end Digest

end ScriptAtlas
