import Tabletop.Dice.Basic
import Tabletop.Random.ChaCha
import Tabletop.Random.KeyedHash

/-!
# Dice bags

A bag rolls dice from a seeded stream and counts how often it drew from it. Streams of one seed
under different tags are independent.

* **below** draws a number below a bound without bias: a 64-bit word times the bound is split into
  a high and a low half, and words whose low half lies in the incomplete last share are drawn again;
* **roll** draws one face for every die.
-/

namespace Tabletop.Random

/-- A seeded source of rolls. -/
structure DiceBag where
  seed : UInt64
  stream : ChaCha.Stream
  draws : Nat

namespace DiceBag

/-- The tag of the stream that rolls use. -/
def diceTag : List UInt8 := "dice".toUTF8.toList

/-- The bag for a named stream of a seed. -/
def forStream (seed : UInt64) (tag : List UInt8) : DiceBag :=
  ⟨seed, ChaCha.Stream.ofSeed (streamSeed seed tag), 0⟩

/-- The bag for the dice stream of a seed. -/
def ofSeed (seed : UInt64) : DiceBag := forStream seed diceTag

/-- Draws a 32-bit number. -/
def word32 (bag : DiceBag) : UInt32 × DiceBag :=
  let (w, stream) := bag.stream.word
  (w, { bag with stream, draws := bag.draws + 1 })

/-- Draws a 64-bit number, low word first. -/
def word64 (bag : DiceBag) : UInt64 × DiceBag :=
  let (low, stream) := bag.stream.word
  let (high, stream) := stream.word
  (low.toUInt64 ||| (high.toUInt64 <<< 32), { bag with stream, draws := bag.draws + 1 })

/-- Draws `n` bytes as one draw; they use up whole words. -/
def bytes (n : Nat) (bag : DiceBag) : List UInt8 × DiceBag :=
  let (words, stream) := bag.stream.words ((n + 3) / 4)
  let all := words.flatMap fun (w : UInt32) =>
    [w.toUInt8, (w >>> 8).toUInt8, (w >>> 16).toUInt8, (w >>> 24).toUInt8]
  (all.take n, { bag with stream, draws := bag.draws + 1 })

/-- How many words of 64 bits there are. -/
def wordCount : Nat := 18446744073709551616

/-- How many words are accepted for each number below `k`: the power of two that shifts `k` up as far
as 64 bits allow. -/
def perNumber (k : Nat) : Nat := Nat.pow 2 (63 - Nat.log2 k)

/-- The greatest low half that is accepted for the bound `k`. -/
def zone (k : Nat) : Nat := k * perNumber k - 1

/-- Whether a word is accepted for the bound `k`. -/
def accepts (k word : Nat) : Bool := word * k % wordCount ≤ zone k

/-- The number below `k` that a word stands for. -/
def share (k word : Nat) : Nat := word * k / wordCount

/-- A number below `k > 0`, drawing again at most `tries` times. At least every second word is
accepted, so that more than a few tries are never seen. -/
def below (k : Nat) : Nat → DiceBag → Nat × DiceBag
  | 0, bag => (0, bag)
  | tries + 1, bag =>
    let (v, bag) := bag.word64
    if accepts k v.toNat then (share k v.toNat, bag) else below k tries bag

/-- After so many refused words in a row a die shows one. -/
def maxTries : Nat := 1000

/-- The faces of `n` dice of `sides` sides. -/
def faces (sides : Nat) : Nat → DiceBag → List Int × DiceBag
  | 0, bag => ([], bag)
  | n + 1, bag =>
    let (face, bag) := below sides maxTries bag
    let (rest, bag) := faces sides n bag
    (((face : Int) + 1) :: rest, bag)

/-- Rolls dice once. -/
def roll (dice : Dice) (bag : DiceBag) : Int × DiceBag :=
  let (drawn, bag) := faces dice.sides dice.drawn bag
  (dice.outcome drawn, bag)

/-- Rolls dice several times. -/
def rollMany (dice : Dice) : Nat → DiceBag → List Int × DiceBag
  | 0, bag => ([], bag)
  | n + 1, bag =>
    let (first, bag) := roll dice bag
    let (rest, bag) := rollMany dice n bag
    (first :: rest, bag)

end DiceBag

end Tabletop.Random
