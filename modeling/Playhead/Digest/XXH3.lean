/-!
The 64-bit XXH3 hash with seed zero.

Short inputs are mixed whole, in one of five ways by length. Inputs over 240 bytes go in stripes of
64 bytes through eight lanes, which are scrambled after every sixteen stripes.
-/

namespace Playhead.XXH3

def secret : ByteArray :=
  ⟨#[
    0xB8, 0xFE, 0x6C, 0x39, 0x23, 0xA4, 0x4B, 0xBE, 0x7C, 0x01, 0x81, 0x2C, 0xF7, 0x21, 0xAD, 0x1C,
    0xDE, 0xD4, 0x6D, 0xE9, 0x83, 0x90, 0x97, 0xDB, 0x72, 0x40, 0xA4, 0xA4, 0xB7, 0xB3, 0x67, 0x1F,
    0xCB, 0x79, 0xE6, 0x4E, 0xCC, 0xC0, 0xE5, 0x78, 0x82, 0x5A, 0xD0, 0x7D, 0xCC, 0xFF, 0x72, 0x21,
    0xB8, 0x08, 0x46, 0x74, 0xF7, 0x43, 0x24, 0x8E, 0xE0, 0x35, 0x90, 0xE6, 0x81, 0x3A, 0x26, 0x4C,
    0x3C, 0x28, 0x52, 0xBB, 0x91, 0xC3, 0x00, 0xCB, 0x88, 0xD0, 0x65, 0x8B, 0x1B, 0x53, 0x2E, 0xA3,
    0x71, 0x64, 0x48, 0x97, 0xA2, 0x0D, 0xF9, 0x4E, 0x38, 0x19, 0xEF, 0x46, 0xA9, 0xDE, 0xAC, 0xD8,
    0xA8, 0xFA, 0x76, 0x3F, 0xE3, 0x9C, 0x34, 0x3F, 0xF9, 0xDC, 0xBB, 0xC7, 0xC7, 0x0B, 0x4F, 0x1D,
    0x8A, 0x51, 0xE0, 0x4B, 0xCD, 0xB4, 0x59, 0x31, 0xC8, 0x9F, 0x7E, 0xC9, 0xD9, 0x78, 0x73, 0x64,
    0xEA, 0xC5, 0xAC, 0x83, 0x34, 0xD3, 0xEB, 0xC3, 0xC5, 0x81, 0xA0, 0xFF, 0xFA, 0x13, 0x63, 0xEB,
    0x17, 0x0D, 0xDD, 0x51, 0xB7, 0xF0, 0xDA, 0x49, 0xD3, 0x16, 0x55, 0x26, 0x29, 0xD4, 0x68, 0x9E,
    0x2B, 0x16, 0xBE, 0x58, 0x7D, 0x47, 0xA1, 0xFC, 0x8F, 0xF8, 0xB8, 0xD1, 0x7A, 0xD0, 0x31, 0xCE,
    0x45, 0xCB, 0x3A, 0x8F, 0x95, 0x16, 0x04, 0x28, 0xAF, 0xD7, 0xFB, 0xCA, 0xBB, 0x4B, 0x40, 0x7E]⟩

def prime32a : UInt64 := 0x9E3779B1
def prime32b : UInt64 := 0x85EBCA77
def prime32c : UInt64 := 0xC2B2AE3D
def prime64a : UInt64 := 0x9E3779B185EBCA87
def prime64b : UInt64 := 0xC2B2AE3D27D4EB4F
def prime64c : UInt64 := 0x165667B19E3779F9
def prime64d : UInt64 := 0x85EBCA77C2B2AE63
def prime64e : UInt64 := 0x27D4EB2F165667C5

def byteAt (d : ByteArray) (i : Nat) : UInt64 :=
  if h : i < d.size then (d.get i h).toUInt64 else 0

/-- Four bytes, the lowest first. -/
def word32 (d : ByteArray) (i : Nat) : UInt64 :=
  byteAt d i ||| (byteAt d (i + 1) <<< 8) ||| (byteAt d (i + 2) <<< 16) |||
    (byteAt d (i + 3) <<< 24)

/-- Eight bytes, the lowest first. -/
def word64 (d : ByteArray) (i : Nat) : UInt64 :=
  word32 d i ||| (word32 d (i + 4) <<< 32)

def rotateLeft (x n : UInt64) : UInt64 :=
  (x <<< n) ||| (x >>> (64 - n))

/-- The two halves of a full product, joined by exclusive or. -/
def foldProduct (a b : UInt64) : UInt64 :=
  let p := a.toNat * b.toNat
  UInt64.ofNat p ^^^ UInt64.ofNat (p >>> 64)

def swapBytes (x : UInt64) : UInt64 :=
  let m1 : UInt64 := 0x00FF00FF00FF00FF
  let m2 : UInt64 := 0x0000FFFF0000FFFF
  let x := ((x >>> 8) &&& m1) ||| ((x &&& m1) <<< 8)
  let x := ((x >>> 16) &&& m2) ||| ((x &&& m2) <<< 16)
  (x >>> 32) ||| (x <<< 32)

def avalanche (h : UInt64) : UInt64 :=
  let h := (h ^^^ (h >>> 37)) * 0x165667919E3779F9
  h ^^^ (h >>> 32)

/-- The stronger finish of the shortest inputs. -/
def strongAvalanche (h : UInt64) : UInt64 :=
  let h := (h ^^^ (h >>> 33)) * prime64b
  let h := (h ^^^ (h >>> 29)) * prime64c
  h ^^^ (h >>> 32)

/-- Sixteen bytes at `i` under sixteen bytes of the secret at `k`. -/
def mix (d : ByteArray) (i k : Nat) : UInt64 :=
  foldProduct (word64 d i ^^^ word64 secret k) (word64 d (i + 8) ^^^ word64 secret (k + 8))

def upTo3 (d : ByteArray) (n : Nat) : UInt64 :=
  let combined := (byteAt d 0 <<< 16) ||| (byteAt d (n / 2) <<< 24) ||| byteAt d (n - 1) |||
    (UInt64.ofNat n <<< 8)
  strongAvalanche (combined ^^^ (word32 secret 0 ^^^ word32 secret 4))

def upTo8 (d : ByteArray) (n : Nat) : UInt64 :=
  let h := (word32 d (n - 4) + (word32 d 0 <<< 32)) ^^^ (word64 secret 8 ^^^ word64 secret 16)
  let h := (h ^^^ rotateLeft h 49 ^^^ rotateLeft h 24) * 0x9FB21C651E98DF25
  let h := (h ^^^ ((h >>> 35) + UInt64.ofNat n)) * 0x9FB21C651E98DF25
  h ^^^ (h >>> 28)

def upTo16 (d : ByteArray) (n : Nat) : UInt64 :=
  let low := word64 d 0 ^^^ (word64 secret 24 ^^^ word64 secret 32)
  let high := word64 d (n - 8) ^^^ (word64 secret 40 ^^^ word64 secret 48)
  avalanche (UInt64.ofNat n + swapBytes low + high + foldProduct low high)

/-- Pairs of blocks from both ends toward the middle. -/
def upTo128 (d : ByteArray) (n : Nat) : UInt64 :=
  let pairs := (n - 1) / 32 + 1
  avalanche <| (List.range pairs).foldl
    (fun acc i => acc + mix d (16 * i) (32 * i) + mix d (n - 16 * (i + 1)) (32 * i + 16))
    (UInt64.ofNat n * prime64a)

def upTo240 (d : ByteArray) (n : Nat) : UInt64 :=
  let first := (List.range 8).foldl (fun acc i => acc + mix d (16 * i) (16 * i))
    (UInt64.ofNat n * prime64a)
  let rest := (List.range (n / 16 - 8)).foldl
    (fun acc i => acc + mix d (16 * (i + 8)) (16 * i + 3)) (avalanche first)
  avalanche (rest + mix d (n - 16) 119)

/-- The eight lanes of a long input. -/
structure Lanes where
  a : UInt64
  b : UInt64
  c : UInt64
  d : UInt64
  e : UInt64
  f : UInt64
  g : UInt64
  h : UInt64

namespace Lanes

def start : Lanes :=
  ⟨prime32c, prime64a, prime64b, prime64c, prime64d, prime32b, prime64e, prime32a⟩

def product (x : UInt64) : UInt64 :=
  (x &&& (0xFFFFFFFF : UInt64)) * (x >>> 32)

/-- Takes in the stripe at `i` under the secret at `k`. -/
def accumulate (l : Lanes) (data : ByteArray) (i k : Nat) : Lanes :=
  let v (j : Nat) : UInt64 := word64 data (i + 8 * j)
  let p (x : UInt64) (j : Nat) : UInt64 := product (x ^^^ word64 secret (k + 8 * j))
  let v0 := v 0
  let v1 := v 1
  let v2 := v 2
  let v3 := v 3
  let v4 := v 4
  let v5 := v 5
  let v6 := v 6
  let v7 := v 7
  ⟨l.a + v1 + p v0 0, l.b + v0 + p v1 1, l.c + v3 + p v2 2, l.d + v2 + p v3 3,
   l.e + v5 + p v4 4, l.f + v4 + p v5 5, l.g + v7 + p v6 6, l.h + v6 + p v7 7⟩

def scramble (l : Lanes) : Lanes :=
  let s (x : UInt64) (j : Nat) : UInt64 :=
    (x ^^^ (x >>> 47) ^^^ word64 secret (128 + 8 * j)) * prime32a
  ⟨s l.a 0, s l.b 1, s l.c 2, s l.d 3, s l.e 4, s l.f 5, s l.g 6, s l.h 7⟩

/-- Takes in `count` stripes from `i` on. -/
def stripes (l : Lanes) (data : ByteArray) (i : Nat) : Nat → Lanes
  | 0 => l
  | count + 1 => (l.stripes data i count).accumulate data (i + 64 * count) (8 * count)

/-- Takes in `count` blocks of sixteen stripes. -/
def blocks (l : Lanes) (data : ByteArray) : Nat → Lanes
  | 0 => l
  | count + 1 => ((l.blocks data count).stripes data (1024 * count) 16).scramble

def merge (l : Lanes) (n : Nat) : UInt64 :=
  let m (x y : UInt64) (k : Nat) : UInt64 :=
    foldProduct (x ^^^ word64 secret k) (y ^^^ word64 secret (k + 8))
  avalanche (UInt64.ofNat n * prime64a + m l.a l.b 11 + m l.c l.d 27 + m l.e l.f 43 +
    m l.g l.h 59)

end Lanes

def long (d : ByteArray) (n : Nat) : UInt64 :=
  let count := (n - 1) / 1024
  let body := (Lanes.start.blocks d count).stripes d (1024 * count) ((n - 1 - 1024 * count) / 64)
  (body.accumulate d (n - 64) 121).merge n

/-- The hash of a sequence of bytes. -/
def hash (d : ByteArray) : UInt64 :=
  let n := d.size
  if n = 0 then strongAvalanche (word64 secret 56 ^^^ word64 secret 64)
  else if n ≤ 3 then upTo3 d n
  else if n ≤ 8 then upTo8 d n
  else if n ≤ 16 then upTo16 d n
  else if n ≤ 128 then upTo128 d n
  else if n ≤ 240 then upTo240 d n
  else long d n

end Playhead.XXH3
