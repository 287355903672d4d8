/-!
# SHA-256 digests

The digest of a sequence of bytes, and the short form of it that generated names carry.
-/
namespace PlainVerse.Digest

/-- The first 32 bits of the fractional parts of the cube roots of the first 64 primes. -/
def roundConstants : List UInt32 :=
  [0x428a2f98, 0x71374491, 0xb5c0fbcf, 0xe9b5dba5, 0x3956c25b, 0x59f111f1, 0x923f82a4, 0xab1c5ed5,
    0xd807aa98, 0x12835b01, 0x243185be, 0x550c7dc3, 0x72be5d74, 0x80deb1fe, 0x9bdc06a7, 0xc19bf174,
    0xe49b69c1, 0xefbe4786, 0x0fc19dc6, 0x240ca1cc, 0x2de92c6f, 0x4a7484aa, 0x5cb0a9dc, 0x76f988da,
    0x983e5152, 0xa831c66d, 0xb00327c8, 0xbf597fc7, 0xc6e00bf3, 0xd5a79147, 0x06ca6351, 0x14292967,
    0x27b70a85, 0x2e1b2138, 0x4d2c6dfc, 0x53380d13, 0x650a7354, 0x766a0abb, 0x81c2c92e, 0x92722c85,
    0xa2bfe8a1, 0xa81a664b, 0xc24b8b70, 0xc76c51a3, 0xd192e819, 0xd6990624, 0xf40e3585, 0x106aa070,
    0x19a4c116, 0x1e376c08, 0x2748774c, 0x34b0bcb5, 0x391c0cb3, 0x4ed8aa4a, 0x5b9cca4f, 0x682e6ff3,
    0x748f82ee, 0x78a5636f, 0x84c87814, 0x8cc70208, 0x90befffa, 0xa4506ceb, 0xbef9a3f7, 0xc67178f2]

/-- The eight words that are carried from block to block. -/
structure Chain where
  a : UInt32
  b : UInt32
  c : UInt32
  d : UInt32
  e : UInt32
  f : UInt32
  g : UInt32
  h : UInt32
deriving DecidableEq, Repr

/-- The first 32 bits of the fractional parts of the square roots of the first 8 primes. -/
def Chain.start : Chain :=
  ⟨0x6a09e667, 0xbb67ae85, 0x3c6ef372, 0xa54ff53a, 0x510e527f, 0x9b05688c, 0x1f83d9ab, 0x5be0cd19⟩

def Chain.add (x y : Chain) : Chain :=
  ⟨x.a + y.a, x.b + y.b, x.c + y.c, x.d + y.d, x.e + y.e, x.f + y.f, x.g + y.g, x.h + y.h⟩

def Chain.words (x : Chain) : List UInt32 := [x.a, x.b, x.c, x.d, x.e, x.f, x.g, x.h]

def rotateRight (x n : UInt32) : UInt32 := (x >>> n) ||| (x <<< (32 - n))

/-- The next word of the schedule from the sixteen before it, the latest first. -/
def nextWord (latest : List UInt32) : UInt32 :=
  let two := latest.getD 1 0
  let fifteen := latest.getD 14 0
  let small0 := rotateRight fifteen 7 ^^^ rotateRight fifteen 18 ^^^ (fifteen >>> 3)
  let small1 := rotateRight two 17 ^^^ rotateRight two 19 ^^^ (two >>> 10)
  latest.getD 15 0 + small0 + latest.getD 6 0 + small1

/-- Prepends `n` words to a schedule that is kept with its latest word first. -/
def extend : (n : Nat) → List UInt32 → List UInt32
  | 0, latest => latest
  | n + 1, latest => extend n (nextWord latest :: latest)

def schedule (block : List UInt32) : List UInt32 := (extend 48 block.reverse).reverse

def round (x : Chain) (word : UInt32 × UInt32) : Chain :=
  let large1 := rotateRight x.e 6 ^^^ rotateRight x.e 11 ^^^ rotateRight x.e 25
  let choice := (x.e &&& x.f) ^^^ (~~~x.e &&& x.g)
  let first := x.h + large1 + choice + word.1 + word.2
  let large0 := rotateRight x.a 2 ^^^ rotateRight x.a 13 ^^^ rotateRight x.a 22
  let majority := (x.a &&& x.b) ^^^ (x.a &&& x.c) ^^^ (x.b &&& x.c)
  ⟨first + (large0 + majority), x.a, x.b, x.c, x.d + first, x.e, x.f, x.g⟩

def absorbBlock (x : Chain) (block : List UInt32) : Chain :=
  x.add ((roundConstants.zip (schedule block)).foldl round x)

/-- The big-endian bytes of a natural number, `count` of them. -/
def bigEndian (count n : Nat) : List UInt8 :=
  (List.range count).reverse.map fun i => UInt8.ofNat (n >>> (8 * i))

/-- A one bit, zeros up to a whole number of blocks, and the length in bits. -/
def padded (message : List UInt8) : List UInt8 :=
  let zeros := (119 - message.length % 64) % 64
  message ++ 0x80 :: (List.replicate zeros 0 ++ bigEndian 8 (8 * message.length))

/-- Groups of `n` at a time; a last shorter group is dropped. -/
def groups {α : Type} (n : Nat) : (count : Nat) → List α → List (List α)
  | 0, _ => []
  | count + 1, items => items.take n :: groups n count (items.drop n)

def wordOfBytes (bytes : List UInt8) : UInt32 :=
  bytes.foldl (fun word byte => word <<< 8 ||| byte.toUInt32) 0

def blocks (message : List UInt8) : List (List UInt32) :=
  let bytes := padded message
  (groups 64 (bytes.length / 64) bytes).map fun block => (groups 4 16 block).map wordOfBytes

def sha256 (message : List UInt8) : List UInt32 :=
  ((blocks message).foldl absorbBlock Chain.start).words

/-- Eight hexadecimal digits. -/
def hex (word : UInt32) : List Char :=
  (List.range 8).reverse.map fun i => Nat.digitChar ((word.toNat >>> (4 * i)) % 16)

/-- The first eight hexadecimal digits of the digest of a text in UTF-8. -/
def short (text : String) : String :=
  String.ofList ((sha256 text.toUTF8.toList).flatMap hex |>.take 8)

end PlainVerse.Digest
