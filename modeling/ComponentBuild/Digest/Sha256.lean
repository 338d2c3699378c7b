/-!
The hash function SHA-256 on byte arrays.

A message is padded with one set bit, zeros and its length in bits to whole
blocks of 64 bytes; each block is expanded to 64 words and mixed into eight
chaining words.
-/

namespace ComponentBuild.Sha256

/-- The first 32 bits of the fractional parts of the cube roots of the first 64
primes. -/
def roundConstants : Array UInt32 := #[
  0x428a2f98, 0x71374491, 0xb5c0fbcf, 0xe9b5dba5, 0x3956c25b, 0x59f111f1,
  0x923f82a4, 0xab1c5ed5, 0xd807aa98, 0x12835b01, 0x243185be, 0x550c7dc3,
  0x72be5d74, 0x80deb1fe, 0x9bdc06a7, 0xc19bf174, 0xe49b69c1, 0xefbe4786,
  0x0fc19dc6, 0x240ca1cc, 0x2de92c6f, 0x4a7484aa, 0x5cb0a9dc, 0x76f988da,
  0x983e5152, 0xa831c66d, 0xb00327c8, 0xbf597fc7, 0xc6e00bf3, 0xd5a79147,
  0x06ca6351, 0x14292967, 0x27b70a85, 0x2e1b2138, 0x4d2c6dfc, 0x53380d13,
  0x650a7354, 0x766a0abb, 0x81c2c92e, 0x92722c85, 0xa2bfe8a1, 0xa81a664b,
  0xc24b8b70, 0xc76c51a3, 0xd192e819, 0xd6990624, 0xf40e3585, 0x106aa070,
  0x19a4c116, 0x1e376c08, 0x2748774c, 0x34b0bcb5, 0x391c0cb3, 0x4ed8aa4a,
  0x5b9cca4f, 0x682e6ff3, 0x748f82ee, 0x78a5636f, 0x84c87814, 0x8cc70208,
  0x90befffa, 0xa4506ceb, 0xbef9a3f7, 0xc67178f2]

structure Chain where
  a : UInt32
  b : UInt32
  c : UInt32
  d : UInt32
  e : UInt32
  f : UInt32
  g : UInt32
  h : UInt32
  deriving DecidableEq, Repr

/-- The first 32 bits of the fractional parts of the square roots of the first
eight primes. -/
def initialChain : Chain :=
  ⟨0x6a09e667, 0xbb67ae85, 0x3c6ef372, 0xa54ff53a, 0x510e527f, 0x9b05688c,
    0x1f83d9ab, 0x5be0cd19⟩

def rotateRight (x : UInt32) (n : UInt32) : UInt32 :=
  (x >>> n) ||| (x <<< (32 - n))

/-- The message followed by the byte `0x80`, zeros, and its bit length in eight
bytes. -/
def pad (message : ByteArray) : ByteArray :=
  let bits := message.size * 8
  let zeros := (119 - message.size % 64) % 64
  let marked := message.push 0x80
  let filled := (List.range zeros).foldl (fun bytes _ => bytes.push 0) marked
  (List.range 8).foldl (fun bytes i =>
    bytes.push (UInt8.ofNat (bits >>> (8 * (7 - i))))) filled

def wordAt (bytes : ByteArray) (i : Nat) : UInt32 :=
  let byte (j : Nat) : UInt32 := ((bytes[i + j]?).getD 0).toUInt32
  (byte 0 <<< 24) ||| (byte 1 <<< 16) ||| (byte 2 <<< 8) ||| byte 3

def schedule (bytes : ByteArray) (start : Nat) : Array UInt32 :=
  let first := (Array.range 16).map fun i => wordAt bytes (start + 4 * i)
  (List.range 48).foldl
    (fun w k =>
      let t := k + 16
      let x := w.getD (t - 15) 0
      let y := w.getD (t - 2) 0
      let s₀ := rotateRight x 7 ^^^ rotateRight x 18 ^^^ (x >>> 3)
      let s₁ := rotateRight y 17 ^^^ rotateRight y 19 ^^^ (y >>> 10)
      w.push (w.getD (t - 16) 0 + s₀ + w.getD (t - 7) 0 + s₁))
    first

def mixRound (s : Chain) (constant word : UInt32) : Chain :=
  let s₁ := rotateRight s.e 6 ^^^ rotateRight s.e 11 ^^^ rotateRight s.e 25
  let choice := (s.e &&& s.f) ^^^ (~~~s.e &&& s.g)
  let t₁ := s.h + s₁ + choice + constant + word
  let s₀ := rotateRight s.a 2 ^^^ rotateRight s.a 13 ^^^ rotateRight s.a 22
  let majority := (s.a &&& s.b) ^^^ (s.a &&& s.c) ^^^ (s.b &&& s.c)
  ⟨t₁ + (s₀ + majority), s.a, s.b, s.c, s.d + t₁, s.e, s.f, s.g⟩

def mixBlock (bytes : ByteArray) (chain : Chain) (start : Nat) : Chain :=
  let words := schedule bytes start
  let mixed := (List.range 64).foldl
    (fun s i => mixRound s (roundConstants.getD i 0) (words.getD i 0)) chain
  ⟨chain.a + mixed.a, chain.b + mixed.b, chain.c + mixed.c, chain.d + mixed.d,
    chain.e + mixed.e, chain.f + mixed.f, chain.g + mixed.g, chain.h + mixed.h⟩

def hash (message : ByteArray) : Chain :=
  let bytes := pad message
  (List.range (bytes.size / 64)).foldl
    (fun chain k => mixBlock bytes chain (64 * k)) initialChain

def hexWord (w : UInt32) : List Char :=
  (List.range 8).map fun i => Nat.digitChar ((w.toNat >>> (4 * (7 - i))) % 16)

def hexDigest (message : ByteArray) : List Char :=
  let s := hash message
  [s.a, s.b, s.c, s.d, s.e, s.f, s.g, s.h].flatMap hexWord

end ComponentBuild.Sha256

namespace ComponentBuild

/-- The hash that identifies the content of an artifact: the digest of its
bytes. -/
structure ContentHash where
  hex : String
  deriving DecidableEq, Repr

namespace ContentHash

def ofContent (content : String) : ContentHash :=
  ⟨String.ofList (Sha256.hexDigest content.toUTF8)⟩

def full (h : ContentHash) : String :=
  "sha256:" ++ h.hex

def short (h : ContentHash) : String :=
  String.ofList (h.hex.toList.take 12)

end ContentHash

end ComponentBuild
