/-!
# SHA-256

The hash function of FIPS 180-4 on lists of bytes: the message is padded to blocks of 64 bytes,
each block is spread to 64 words, and 64 rounds mix them into the eight words of the state.
-/

namespace Tabletop.Random.Sha256

/-- The round constants. -/
def roundConstants : List UInt32 :=
  [0x428a2f98, 0x71374491, 0xb5c0fbcf, 0xe9b5dba5, 0x3956c25b, 0x59f111f1, 0x923f82a4, 0xab1c5ed5,
   0xd807aa98, 0x12835b01, 0x243185be, 0x550c7dc3, 0x72be5d74, 0x80deb1fe, 0x9bdc06a7, 0xc19bf174,
   0xe49b69c1, 0xefbe4786, 0x0fc19dc6, 0x240ca1cc, 0x2de92c6f, 0x4a7484aa, 0x5cb0a9dc, 0x76f988da,
   0x983e5152, 0xa831c66d, 0xb00327c8, 0xbf597fc7, 0xc6e00bf3, 0xd5a79147, 0x06ca6351, 0x14292967,
   0x27b70a85, 0x2e1b2138, 0x4d2c6dfc, 0x53380d13, 0x650a7354, 0x766a0abb, 0x81c2c92e, 0x92722c85,
   0xa2bfe8a1, 0xa81a664b, 0xc24b8b70, 0xc76c51a3, 0xd192e819, 0xd6990624, 0xf40e3585, 0x106aa070,
   0x19a4c116, 0x1e376c08, 0x2748774c, 0x34b0bcb5, 0x391c0cb3, 0x4ed8aa4a, 0x5b9cca4f, 0x682e6ff3,
   0x748f82ee, 0x78a5636f, 0x84c87814, 0x8cc70208, 0x90befffa, 0xa4506ceb, 0xbef9a3f7, 0xc67178f2]

/-- The eight working words. -/
structure State where
  a : UInt32
  b : UInt32
  c : UInt32
  d : UInt32
  e : UInt32
  f : UInt32
  g : UInt32
  h : UInt32

/-- The state before the first block. -/
def State.start : State :=
  ⟨0x6a09e667, 0xbb67ae85, 0x3c6ef372, 0xa54ff53a, 0x510e527f, 0x9b05688c, 0x1f83d9ab, 0x5be0cd19⟩

/-- A word turned right by `n` bits, for `0 < n < 32`. -/
def rotateRight (x : UInt32) (n : UInt32) : UInt32 := (x >>> n) ||| (x <<< (32 - n))

/-- The big-endian bytes of a word. -/
def bytesOf (w : UInt32) : List UInt8 :=
  [(w >>> 24).toUInt8, (w >>> 16).toUInt8, (w >>> 8).toUInt8, w.toUInt8]

/-- The big-endian words of a list of bytes. -/
def wordsOf : List UInt8 → List UInt32
  | a :: b :: c :: d :: rest =>
    ((a.toUInt32 <<< 24) ||| (b.toUInt32 <<< 16) ||| (c.toUInt32 <<< 8) ||| d.toUInt32)
      :: wordsOf rest
  | _ => []

/-- The message with a one bit, zeros and its length in bits behind it. -/
def padded (message : List UInt8) : List UInt8 :=
  let filling : List UInt8 := 0x80 :: List.replicate ((119 - message.length % 64) % 64) 0
  let bits := (message.length * 8).toUInt64
  message ++ filling ++ bytesOf (bits >>> 32).toUInt32 ++ bytesOf bits.toUInt32

/-- The next `n` words of the schedule, from the last sixteen. -/
def spread : Nat → List UInt32 → List UInt32
  | n + 1, last@(w0 :: w1 :: rest) =>
    let w9 := rest.getD 7 0
    let w14 := rest.getD 12 0
    let low := rotateRight w1 7 ^^^ rotateRight w1 18 ^^^ (w1 >>> 3)
    let high := rotateRight w14 17 ^^^ rotateRight w14 19 ^^^ (w14 >>> 10)
    let next := w0 + low + w9 + high
    next :: spread n (last.tail ++ [next])
  | _, _ => []

/-- One round with the constant and the schedule word in `kw`. -/
def State.round (s : State) (kw : UInt32 × UInt32) : State :=
  let high := rotateRight s.e 6 ^^^ rotateRight s.e 11 ^^^ rotateRight s.e 25
  let choice := (s.e &&& s.f) ^^^ (~~~s.e &&& s.g)
  let first := s.h + high + choice + kw.1 + kw.2
  let low := rotateRight s.a 2 ^^^ rotateRight s.a 13 ^^^ rotateRight s.a 22
  let majority := (s.a &&& s.b) ^^^ (s.a &&& s.c) ^^^ (s.b &&& s.c)
  ⟨first + low + majority, s.a, s.b, s.c, s.d + first, s.e, s.f, s.g⟩

/-- The state after a block of sixteen words. -/
def State.absorb (s : State) (block : List UInt32) : State :=
  let t := (roundConstants.zip (block ++ spread 48 block)).foldl State.round s
  ⟨s.a + t.a, s.b + t.b, s.c + t.c, s.d + t.d, s.e + t.e, s.f + t.f, s.g + t.g, s.h + t.h⟩

/-- The state after all words, sixteen at a time. -/
def State.absorbAll (s : State) (words : List UInt32) : State :=
  match words with
  | [] => s
  | w :: ws => (s.absorb ((w :: ws).take 16)).absorbAll (ws.drop 15)
termination_by words.length
decreasing_by simp only [List.length_drop, List.length_cons]; omega

/-- The words of the state. -/
def State.words (s : State) : List UInt32 := [s.a, s.b, s.c, s.d, s.e, s.f, s.g, s.h]

/-- The hash of a message, 32 bytes. -/
def hash (message : List UInt8) : List UInt8 :=
  (State.start.absorbAll (wordsOf (padded message))).words.flatMap bytesOf

end Tabletop.Random.Sha256
