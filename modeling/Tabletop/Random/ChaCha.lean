/-!
# ChaCha20 streams

A stream of 32-bit words: block after block of the ChaCha function with twenty rounds, a 64-bit
block counter that starts at zero, and a nonce of zero.
-/

namespace Tabletop.Random.ChaCha

/-- A word turned left by `n` bits, for `0 < n < 32`. -/
def rotateLeft (x : UInt32) (n : UInt32) : UInt32 := (x <<< n) ||| (x >>> (32 - n))

/-- Mixes the words at four places. -/
def quarterRound (w : Array UInt32) (a b c d : Nat) : Array UInt32 :=
  let x := w.getD a 0 + w.getD b 0
  let y := rotateLeft (w.getD d 0 ^^^ x) 16
  let z := w.getD c 0 + y
  let u := rotateLeft (w.getD b 0 ^^^ z) 12
  let x := x + u
  let y := rotateLeft (y ^^^ x) 8
  let z := z + y
  let u := rotateLeft (u ^^^ z) 7
  (((w.setIfInBounds a x).setIfInBounds d y).setIfInBounds c z).setIfInBounds b u

/-- A round over the columns and one over the diagonals. -/
def doubleRound (w : Array UInt32) : Array UInt32 :=
  [(0, 4, 8, 12), (1, 5, 9, 13), (2, 6, 10, 14), (3, 7, 11, 15),
   (0, 5, 10, 15), (1, 6, 11, 12), (2, 7, 8, 13), (3, 4, 9, 14)].foldl
    (fun w (a, b, c, d) => quarterRound w a b c d) w

/-- The sixteen words of block `counter` under a key of eight words. -/
def block (key : List UInt32) (counter : UInt64) : Array UInt32 :=
  let constants : List UInt32 := [0x61707865, 0x3320646e, 0x79622d32, 0x6b206574]
  let input := (constants ++ key ++ [counter.toUInt32, (counter >>> 32).toUInt32, 0, 0]).toArray
  let mixed := (List.range 10).foldl (fun w _ => doubleRound w) input
  Array.zipWith (· + ·) mixed input

/-- The key words that a 64-bit seed expands to, by a permuted congruential generator. -/
def keyWords : Nat → UInt64 → List UInt32
  | 0, _ => []
  | n + 1, s =>
    let s := s * 6364136223846793005 + 11634580027462260723
    let x := (((s >>> 18) ^^^ s) >>> 27).toUInt32
    let turn := (s >>> 59).toUInt32
    let word := if turn = 0 then x else (x >>> turn) ||| (x <<< (32 - turn))
    word :: keyWords n s

/-- A place in a stream: the words of the current block not yet used, and the number of the next
block. -/
structure Stream where
  key : List UInt32
  ready : List UInt32
  next : UInt64

/-- The stream that a seed starts. -/
def Stream.ofSeed (seed : UInt64) : Stream := ⟨keyWords 8 seed, [], 0⟩

/-- The next word. -/
def Stream.word (s : Stream) : UInt32 × Stream :=
  match s.ready with
  | w :: rest => (w, { s with ready := rest })
  | [] =>
    let words := (block s.key s.next).toList
    (words.headD 0, { s with ready := words.tail, next := s.next + 1 })

/-- The next `n` words. -/
def Stream.words : Nat → Stream → List UInt32 × Stream
  | 0, s => ([], s)
  | n + 1, s =>
    let (w, s) := s.word
    let (ws, s) := Stream.words n s
    (w :: ws, s)

end Tabletop.Random.ChaCha
