/-!
# The 64-bit XXH3 hash

XXH3 with seed zero and its default secret.  Short inputs of up to sixteen bytes are mixed
in one step, inputs of up to 240 bytes by folding sixteen-byte lanes into one accumulator,
and longer inputs by eight accumulators over stripes of 64 bytes, scrambled after each block
of sixteen stripes.
-/

namespace ObjectMapping.XXH3

/-- The default secret. -/
def secret : List UInt8 :=
  [0xb8, 0xfe, 0x6c, 0x39, 0x23, 0xa4, 0x4b, 0xbe, 0x7c, 0x01, 0x81, 0x2c, 0xf7, 0x21, 0xad, 0x1c,
   0xde, 0xd4, 0x6d, 0xe9, 0x83, 0x90, 0x97, 0xdb, 0x72, 0x40, 0xa4, 0xa4, 0xb7, 0xb3, 0x67, 0x1f,
   0xcb, 0x79, 0xe6, 0x4e, 0xcc, 0xc0, 0xe5, 0x78, 0x82, 0x5a, 0xd0, 0x7d, 0xcc, 0xff, 0x72, 0x21,
   0xb8, 0x08, 0x46, 0x74, 0xf7, 0x43, 0x24, 0x8e, 0xe0, 0x35, 0x90, 0xe6, 0x81, 0x3a, 0x26, 0x4c,
   0x3c, 0x28, 0x52, 0xbb, 0x91, 0xc3, 0x00, 0xcb, 0x88, 0xd0, 0x65, 0x8b, 0x1b, 0x53, 0x2e, 0xa3,
   0x71, 0x64, 0x48, 0x97, 0xa2, 0x0d, 0xf9, 0x4e, 0x38, 0x19, 0xef, 0x46, 0xa9, 0xde, 0xac, 0xd8,
   0xa8, 0xfa, 0x76, 0x3f, 0xe3, 0x9c, 0x34, 0x3f, 0xf9, 0xdc, 0xbb, 0xc7, 0xc7, 0x0b, 0x4f, 0x1d,
   0x8a, 0x51, 0xe0, 0x4b, 0xcd, 0xb4, 0x59, 0x31, 0xc8, 0x9f, 0x7e, 0xc9, 0xd9, 0x78, 0x73, 0x64,
   0xea, 0xc5, 0xac, 0x83, 0x34, 0xd3, 0xeb, 0xc3, 0xc5, 0x81, 0xa0, 0xff, 0xfa, 0x13, 0x63, 0xeb,
   0x17, 0x0d, 0xdd, 0x51, 0xb7, 0xf0, 0xda, 0x49, 0xd3, 0x16, 0x55, 0x26, 0x29, 0xd4, 0x68, 0x9e,
   0x2b, 0x16, 0xbe, 0x58, 0x7d, 0x47, 0xa1, 0xfc, 0x8f, 0xf8, 0xb8, 0xd1, 0x7a, 0xd0, 0x31, 0xce,
   0x45, 0xcb, 0x3a, 0x8f, 0x95, 0x16, 0x04, 0x28, 0xaf, 0xd7, 0xfb, 0xca, 0xbb, 0x4b, 0x40, 0x7e]

/-! ## Words -/

/-- The number whose bytes are given, least significant first. -/
def fromBytes : List UInt8 → UInt64
  | [] => 0
  | b :: bs => b.toUInt64 + (fromBytes bs <<< 8)

/-- The 64-bit word at an offset. -/
def word64 (bytes : List UInt8) (offset : Nat) : UInt64 :=
  fromBytes ((bytes.drop offset).take 8)

/-- The 32-bit word at an offset. -/
def word32 (bytes : List UInt8) (offset : Nat) : UInt64 :=
  fromBytes ((bytes.drop offset).take 4)

/-- The byte at an offset. -/
def byteAt (bytes : List UInt8) (offset : Nat) : UInt64 :=
  fromBytes ((bytes.drop offset).take 1)

/-- Rotation to the left, for a distance between 1 and 63. -/
def rotateLeft (x : UInt64) (n : UInt64) : UInt64 := (x <<< n) ||| (x >>> (64 - n))

/-- The bytes of a word in the opposite order. -/
def swapBytes (x : UInt64) : UInt64 :=
  (List.range 8).foldl (fun acc i => (acc <<< 8) ||| ((x >>> (8 * i.toUInt64)) &&& 0xFF)) 0

/-- The exclusive or of both halves of a 128-bit product. -/
def foldedProduct (x y : UInt64) : UInt64 :=
  let product := x.toNat * y.toNat
  product.toUInt64 ^^^ (product >>> 64).toUInt64

/-- A word mixed with its own upper bits. -/
def xorShift (x : UInt64) (n : UInt64) : UInt64 := x ^^^ (x >>> n)

def prime32One : UInt64 := 0x9E3779B1

def prime32Two : UInt64 := 0x85EBCA77

def prime32Three : UInt64 := 0xC2B2AE3D

def prime64One : UInt64 := 0x9E3779B185EBCA87

def prime64Two : UInt64 := 0xC2B2AE3D27D4EB4F

def prime64Three : UInt64 := 0x165667B19E3779F9

def prime64Four : UInt64 := 0x85EBCA77C2B2AE63

def prime64Five : UInt64 := 0x27D4EB2F165667C5

/-! ## Final mixing -/

/-- The last step for inputs of more than eight bytes. -/
def avalanche (h : UInt64) : UInt64 :=
  xorShift (xorShift h 37 * 0x165667919E3779F9) 32

/-- The last step for inputs of fewer than four bytes. -/
def strongAvalanche (h : UInt64) : UInt64 :=
  xorShift (xorShift (xorShift h 33 * prime64Two) 29 * prime64Three) 32

/-- The last step for inputs of four to eight bytes. -/
def rotatedAvalanche (h : UInt64) (length : UInt64) : UInt64 :=
  let h := (h ^^^ rotateLeft h 49 ^^^ rotateLeft h 24) * 0x9FB21C651E98DF25
  xorShift ((h ^^^ ((h >>> 35) + length)) * 0x9FB21C651E98DF25) 28

/-! ## Inputs by length -/

/-- The hash of an input of one to three bytes. -/
def hashTiny (input : List UInt8) : UInt64 :=
  let n := input.length
  let combined := (byteAt input 0 <<< 16) ||| (byteAt input (n / 2) <<< 24)
    ||| byteAt input (n - 1) ||| (n.toUInt64 <<< 8)
  strongAvalanche (combined ^^^ (word32 secret 0 ^^^ word32 secret 4))

/-- The hash of an input of four to eight bytes. -/
def hashSmall (input : List UInt8) : UInt64 :=
  let n := input.length
  let joined := word32 input (n - 4) + (word32 input 0 <<< 32)
  rotatedAvalanche (joined ^^^ (word64 secret 8 ^^^ word64 secret 16)) n.toUInt64

/-- The hash of an input of nine to sixteen bytes. -/
def hashShort (input : List UInt8) : UInt64 :=
  let n := input.length
  let low := word64 input 0 ^^^ (word64 secret 24 ^^^ word64 secret 32)
  let high := word64 input (n - 8) ^^^ (word64 secret 40 ^^^ word64 secret 48)
  avalanche (n.toUInt64 + swapBytes low + high + foldedProduct low high)

/-- Sixteen bytes of input mixed with sixteen bytes of the secret. -/
def mixLane (input : List UInt8) (offset secretAt : Nat) : UInt64 :=
  foldedProduct (word64 input offset ^^^ word64 secret secretAt)
    (word64 input (offset + 8) ^^^ word64 secret (secretAt + 8))

/-- The hash of an input of 17 to 128 bytes: lanes from both ends, meeting in the middle. -/
def hashMedium (input : List UInt8) : UInt64 :=
  let n := input.length
  let pairs := (n - 1) / 32 + 1
  let mixed := (List.range pairs).foldl (fun acc i =>
    acc + mixLane input (16 * i) (32 * i) + mixLane input (n - 16 * (i + 1)) (32 * i + 16))
    (n.toUInt64 * prime64One)
  avalanche mixed

/-- The hash of an input of 129 to 240 bytes. -/
def hashLong (input : List UInt8) : UInt64 :=
  let n := input.length
  let first := (List.range 8).foldl (fun acc i => acc + mixLane input (16 * i) (16 * i))
    (n.toUInt64 * prime64One)
  let rest := (List.range (n / 16 - 8)).foldl
    (fun acc i => acc + mixLane input (16 * (i + 8)) (16 * i + 3)) (avalanche first)
  avalanche (rest + mixLane input (n - 16) (136 - 17))

/-- The eight accumulators before the first stripe. -/
def initialLanes : List UInt64 :=
  [prime32Three, prime64One, prime64Two, prime64Three, prime64Four, prime32Two, prime64Five,
    prime32One]

/-- A stripe of 64 bytes folded into the accumulators: each lane takes the product of the
halves of its keyed word, and the plain word of its neighbour. -/
def accumulate (lanes : List UInt64) (stripe : List UInt8) (secretAt : Nat) : List UInt64 :=
  let keyed := (List.range 8).map fun i =>
    word64 stripe (8 * i) ^^^ word64 secret (secretAt + 8 * i)
  lanes.zipIdx.map fun (lane, i) =>
    let key : UInt64 := keyed.getD i 0
    let neighbour := if i % 2 = 0 then i + 1 else i - 1
    lane + (key &&& (0xFFFFFFFF : UInt64)) * (key >>> 32) + word64 stripe (8 * neighbour)

/-- The accumulators scrambled at the end of a block. -/
def scramble (lanes : List UInt64) : List UInt64 :=
  lanes.zipIdx.map fun (lane, i) =>
    (xorShift lane 47 ^^^ word64 secret (128 + 8 * i)) * prime32One

/-- The accumulators after `stripes` stripes, of which sixteen make a block. -/
def accumulateAll (input : List UInt8) (stripes : Nat) : List UInt64 :=
  (List.range stripes).foldl (fun lanes i =>
    let lanes := accumulate lanes (input.drop (64 * i)) (8 * (i % 16))
    if i % 16 = 15 then scramble lanes else lanes) initialLanes

/-- The hash of an input of more than 240 bytes. -/
def hashStriped (input : List UInt8) : UInt64 :=
  let n := input.length
  let lanes := accumulate (accumulateAll input ((n - 1) / 64)) (input.drop (n - 64)) 121
  let merged := (List.range 4).foldl (fun acc i =>
    acc + foldedProduct (lanes.getD (2 * i) 0 ^^^ word64 secret (11 + 16 * i))
      (lanes.getD (2 * i + 1) 0 ^^^ word64 secret (11 + 16 * i + 8)))
    (n.toUInt64 * prime64One)
  avalanche merged

/-- The hash of a list of bytes. -/
def hash (input : List UInt8) : UInt64 :=
  let n := input.length
  if n = 0 then strongAvalanche (word64 secret 56 ^^^ word64 secret 64)
  else if n ≤ 3 then hashTiny input
  else if n ≤ 8 then hashSmall input
  else if n ≤ 16 then hashShort input
  else if n ≤ 128 then hashMedium input
  else if n ≤ 240 then hashLong input
  else hashStriped input

end ObjectMapping.XXH3
