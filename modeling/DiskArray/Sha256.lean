/-!
# SHA-256

The digest of a byte string: the message is padded to whole chunks of 64 bytes, and each chunk is
expanded to 64 words and mixed into a state of eight words. All words are 32 bits wide and written
with the most significant byte first.
-/

namespace DiskArray.Sha256

/-- Thirty-two bytes. -/
abbrev Digest := Vector UInt8 32

/-- The state of eight words. -/
abbrev State := Vector UInt32 8

/-- Fractional parts of the square roots of the first eight primes. -/
def initial : State :=
  #v[0x6a09e667, 0xbb67ae85, 0x3c6ef372, 0xa54ff53a, 0x510e527f, 0x9b05688c, 0x1f83d9ab, 0x5be0cd19]

/-- Fractional parts of the cube roots of the first sixty-four primes. -/
def roundConstants : Vector UInt32 64 :=
  #v[0x428a2f98, 0x71374491, 0xb5c0fbcf, 0xe9b5dba5, 0x3956c25b, 0x59f111f1, 0x923f82a4, 0xab1c5ed5,
    0xd807aa98, 0x12835b01, 0x243185be, 0x550c7dc3, 0x72be5d74, 0x80deb1fe, 0x9bdc06a7, 0xc19bf174,
    0xe49b69c1, 0xefbe4786, 0x0fc19dc6, 0x240ca1cc, 0x2de92c6f, 0x4a7484aa, 0x5cb0a9dc, 0x76f988da,
    0x983e5152, 0xa831c66d, 0xb00327c8, 0xbf597fc7, 0xc6e00bf3, 0xd5a79147, 0x06ca6351, 0x14292967,
    0x27b70a85, 0x2e1b2138, 0x4d2c6dfc, 0x53380d13, 0x650a7354, 0x766a0abb, 0x81c2c92e, 0x92722c85,
    0xa2bfe8a1, 0xa81a664b, 0xc24b8b70, 0xc76c51a3, 0xd192e819, 0xd6990624, 0xf40e3585, 0x106aa070,
    0x19a4c116, 0x1e376c08, 0x2748774c, 0x34b0bcb5, 0x391c0cb3, 0x4ed8aa4a, 0x5b9cca4f, 0x682e6ff3,
    0x748f82ee, 0x78a5636f, 0x84c87814, 0x8cc70208, 0x90befffa, 0xa4506ceb, 0xbef9a3f7, 0xc67178f2]

/-- A word turned right by `n` places. -/
def rotate (w n : UInt32) : UInt32 := (w >>> n) ||| (w <<< (32 - n))

/-- The first `n` words of the schedule that sixteen words expand to. -/
def scheduleUpTo (words : Vector UInt32 16) : (n : Nat) → Vector UInt32 n
  | 0 => #v[]
  | n + 1 =>
    let w := scheduleUpTo words n
    w.push <|
      if h : n < 16 then words[n]
      else
        let a := w[n - 15]
        let b := w[n - 2]
        let s := rotate a 7 ^^^ rotate a 18 ^^^ (a >>> 3)
        let t := rotate b 17 ^^^ rotate b 19 ^^^ (b >>> 10)
        w[n - 16] + s + w[n - 7] + t

/-- One round with its constant and its word of the schedule. -/
def round (s : State) (constant word : UInt32) : State :=
  let a := s[0]
  let e := s[4]
  let choice := (e &&& s[5]) ^^^ (~~~e &&& s[6])
  let majority := (a &&& s[1]) ^^^ (a &&& s[2]) ^^^ (s[1] &&& s[2])
  let t := s[7] + (rotate e 6 ^^^ rotate e 11 ^^^ rotate e 25) + choice + constant + word
  let u := (rotate a 2 ^^^ rotate a 13 ^^^ rotate a 22) + majority
  #v[t + u, a, s[1], s[2], s[3] + t, e, s[5], s[6]]

/-- The state after a chunk of sixteen words. -/
def compress (s : State) (chunk : Vector UInt32 16) : State :=
  let rounds := roundConstants.toList.zip (scheduleUpTo chunk 64).toList
  let mixed := rounds.foldl (fun t r => round t r.1 r.2) s
  s.zipWith (· + ·) mixed

/-- The bytes of a number, `width` of them, most significant first. -/
def bigEndian (width n : Nat) : List UInt8 :=
  (List.range width).reverse.map fun i => UInt8.ofNat (n >>> (8 * i))

/-- The message, a one bit, zeros, and the message's length in bits as eight bytes. -/
def pad (message : List UInt8) : List UInt8 :=
  let zeros := (119 - message.length % 64) % 64
  message ++ 0x80 :: List.replicate zeros 0 ++ bigEndian 8 (8 * message.length)

/-- Four bytes at a time, as words. -/
def toWords : List UInt8 → List UInt32
  | a :: b :: c :: d :: rest =>
    ((a.toUInt32 <<< 24) ||| (b.toUInt32 <<< 16) ||| (c.toUInt32 <<< 8) ||| d.toUInt32) :: toWords rest
  | _ => []

/-- The state after all whole chunks of a row of words. -/
def absorb (s : State) (words : List UInt32) : State :=
  if _h : words.length < 16 then s
  else absorb (compress s (Vector.ofFn fun i : Fin 16 => words.getD i 0)) (words.drop 16)
termination_by words.length
decreasing_by
  simp only [List.length_drop]
  omega

/-- The digest of a message. -/
def digest (message : List UInt8) : Digest :=
  let s := absorb initial (toWords (pad message))
  Vector.ofFn fun i : Fin 32 =>
    (s[i.val / 4] >>> (24 - 8 * (UInt32.ofNat (i.val % 4)))).toUInt8

end DiskArray.Sha256
