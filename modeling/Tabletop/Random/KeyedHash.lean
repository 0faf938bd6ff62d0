import Tabletop.Random.Sha256

/-!
# Keyed hashes

HMAC over SHA-256: the key, filled up to a block, masks an inner and an outer hash.
-/

namespace Tabletop.Random

/-- The eight bytes of a number, least significant first. -/
def littleEndian (n : UInt64) : List UInt8 :=
  (List.range 8).map fun i => (n >>> (8 * i).toUInt64).toUInt8

/-- The number with the given bytes, least significant first. -/
def ofLittleEndian (bytes : List UInt8) : UInt64 :=
  bytes.foldr (fun b n => n * 256 + b.toUInt64) 0

/-- The keyed hash of a message; a key longer than a block is hashed first. -/
def keyedHash (key message : List UInt8) : List UInt8 :=
  let short := if key.length > 64 then Sha256.hash key else key
  let block := short ++ List.replicate (64 - short.length) 0
  Sha256.hash (block.map (· ^^^ 0x5c) ++ Sha256.hash (block.map (· ^^^ 0x36) ++ message))

/-- The seed of the stream named `tag` of a user's seed: the first eight bytes of the keyed hash. -/
def streamSeed (seed : UInt64) (tag : List UInt8) : UInt64 :=
  ofLittleEndian ((keyedHash (littleEndian seed) tag).take 8)

end Tabletop.Random
