/-!
# SHA-256

The hash function of FIPS 180-4 on lists of bytes.

* `pad` brings a message to a whole number of 64-byte blocks: a one bit, zeros, and the length in
  bits as eight bytes.
* `schedule` expands a block to 64 words, `compress` stirs them into the eight words of the state.
* `sha256` is the state after the last block, `hex` its text in lower-case hexadecimal digits.
-/

namespace GoPages.Digest

/-- The first 32 bits of the fractional parts of the cube roots of the first 64 primes. -/
def roundConstants : List UInt32 :=
  [0x428a2f98, 0x71374491, 0xb5c0fbcf, 0xe9b5dba5, 0x3956c25b, 0x59f111f1, 0x923f82a4, 0xab1c5ed5,
   0xd807aa98, 0x12835b01, 0x243185be, 0x550c7dc3, 0x72be5d74, 0x80deb1fe, 0x9bdc06a7, 0xc19bf174,
   0xe49b69c1, 0xefbe4786, 0x0fc19dc6, 0x240ca1cc, 0x2de92c6f, 0x4a7484aa, 0x5cb0a9dc, 0x76f988da,
   0x983e5152, 0xa831c66d, 0xb00327c8, 0xbf597fc7, 0xc6e00bf3, 0xd5a79147, 0x06ca6351, 0x14292967,
   0x27b70a85, 0x2e1b2138, 0x4d2c6dfc, 0x53380d13, 0x650a7354, 0x766a0abb, 0x81c2c92e, 0x92722c85,
   0xa2bfe8a1, 0xa81a664b, 0xc24b8b70, 0xc76c51a3, 0xd192e819, 0xd6990624, 0xf40e3585, 0x106aa070,
   0x19a4c116, 0x1e376c08, 0x2748774c, 0x34b0bcb5, 0x391c0cb3, 0x4ed8aa4a, 0x5b9cca4f, 0x682e6ff3,
   0x748f82ee, 0x78a5636f, 0x84c87814, 0x8cc70208, 0x90befffa, 0xa4506ceb, 0xbef9a3f7, 0xc67178f2]

/-- The eight words that are stirred. -/
structure State where
  a : UInt32
  b : UInt32
  c : UInt32
  d : UInt32
  e : UInt32
  f : UInt32
  g : UInt32
  h : UInt32

/-- The first 32 bits of the fractional parts of the square roots of the first eight primes. -/
def State.start : State :=
  ⟨0x6a09e667, 0xbb67ae85, 0x3c6ef372, 0xa54ff53a, 0x510e527f, 0x9b05688c, 0x1f83d9ab, 0x5be0cd19⟩

/-- Rotation to the right by `n` bits, `n` between 1 and 31. -/
def rotateRight (x : UInt32) (n : UInt32) : UInt32 := (x >>> n) ||| (x <<< (32 - n))

/-- A number as `count` bytes, the most significant first. -/
def bigEndian (count n : Nat) : List UInt8 :=
  (List.range count).reverse.map fun i => (n >>> (8 * i)).toUInt8

/-- The message followed by a one bit, zeros and its length in bits, in whole blocks. -/
def pad (message : List UInt8) : List UInt8 :=
  message ++ 0x80 :: List.replicate ((119 - message.length % 64) % 64) 0
    ++ bigEndian 8 (8 * message.length)

/-- Four bytes as a word. -/
def wordOf (a b c d : UInt8) : UInt32 :=
  (a.toUInt32 <<< 24) ||| (b.toUInt32 <<< 16) ||| (c.toUInt32 <<< 8) ||| d.toUInt32

/-- Bytes as words, four by four. -/
def wordsOf : List UInt8 → List UInt32
  | a :: b :: c :: d :: rest => wordOf a b c d :: wordsOf rest
  | _ => []

/-- The words after the first sixteen, each from the word 16, 15, 7 and 2 places before it. -/
def extend (words : Array UInt32) : Nat → Array UInt32
  | 0 => words
  | n + 1 =>
    let words := extend words n
    let back (i : Nat) := words.getD (words.size - i) 0
    let s₀ := rotateRight (back 15) 7 ^^^ rotateRight (back 15) 18 ^^^ (back 15 >>> 3)
    let s₁ := rotateRight (back 2) 17 ^^^ rotateRight (back 2) 19 ^^^ (back 2 >>> 10)
    words.push (back 16 + s₀ + back 7 + s₁)

/-- The 64 words of a block of sixteen words. -/
def schedule (block : List UInt32) : List UInt32 := (extend block.toArray 48).toList

/-- One round with a round constant and a word of the schedule. -/
def State.round (s : State) (k w : UInt32) : State :=
  let s₁ := rotateRight s.e 6 ^^^ rotateRight s.e 11 ^^^ rotateRight s.e 25
  let choice := (s.e &&& s.f) ^^^ ((~~~ s.e) &&& s.g)
  let t₁ := s.h + s₁ + choice + k + w
  let s₀ := rotateRight s.a 2 ^^^ rotateRight s.a 13 ^^^ rotateRight s.a 22
  let majority := (s.a &&& s.b) ^^^ (s.a &&& s.c) ^^^ (s.b &&& s.c)
  ⟨t₁ + (s₀ + majority), s.a, s.b, s.c, s.d + t₁, s.e, s.f, s.g⟩

/-- The sum of two states word by word. -/
def State.add (s t : State) : State :=
  ⟨s.a + t.a, s.b + t.b, s.c + t.c, s.d + t.d, s.e + t.e, s.f + t.f, s.g + t.g, s.h + t.h⟩

/-- Stirs a block into the state. -/
def State.compress (s : State) (block : List UInt32) : State :=
  s.add ((roundConstants.zip (schedule block)).foldl (fun s (k, w) => s.round k w) s)

/-- Cuts a list into chunks of `n + 1` items; the last chunk may be shorter. -/
def chunks {α : Type} (n : Nat) : List α → List (List α)
  | [] => []
  | a :: rest =>
    have : (rest.drop n).length < (a :: rest).length := by
      rw [List.length_drop, List.length_cons]
      omega
    (a :: rest.take n) :: chunks n (rest.drop n)
termination_by as => as.length

/-- The words of a state. -/
def State.words (s : State) : List UInt32 := [s.a, s.b, s.c, s.d, s.e, s.f, s.g, s.h]

/-- The hash of a message, as 32 bytes. -/
def sha256 (message : List UInt8) : List UInt8 :=
  let blocks := chunks 15 (wordsOf (pad message))
  (blocks.foldl State.compress State.start).words.flatMap fun w => bigEndian 4 w.toNat

/-- Bytes as pairs of lower-case hexadecimal digits. -/
def hex (bytes : List UInt8) : String :=
  String.ofList (bytes.flatMap fun b =>
    [Nat.digitChar (b.toNat / 16), Nat.digitChar (b.toNat % 16)])

end GoPages.Digest
