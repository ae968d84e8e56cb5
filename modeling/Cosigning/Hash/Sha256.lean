import Cosigning.Bytes

/-!
# SHA-256

The message is padded to whole blocks of sixteen words, each block is expanded
to sixty-four words, and sixty-four rounds mix them into eight chaining words.
-/

namespace Cosigning
namespace Sha256

structure State where
  a : UInt32
  b : UInt32
  c : UInt32
  d : UInt32
  e : UInt32
  f : UInt32
  g : UInt32
  h : UInt32

def initialState : State :=
  { a := 0x6a09e667
    b := 0xbb67ae85
    c := 0x3c6ef372
    d := 0xa54ff53a
    e := 0x510e527f
    f := 0x9b05688c
    g := 0x1f83d9ab
    h := 0x5be0cd19 }

def roundConstants : List UInt32 :=
  [0x428a2f98, 0x71374491, 0xb5c0fbcf, 0xe9b5dba5,
   0x3956c25b, 0x59f111f1, 0x923f82a4, 0xab1c5ed5,
   0xd807aa98, 0x12835b01, 0x243185be, 0x550c7dc3,
   0x72be5d74, 0x80deb1fe, 0x9bdc06a7, 0xc19bf174,
   0xe49b69c1, 0xefbe4786, 0x0fc19dc6, 0x240ca1cc,
   0x2de92c6f, 0x4a7484aa, 0x5cb0a9dc, 0x76f988da,
   0x983e5152, 0xa831c66d, 0xb00327c8, 0xbf597fc7,
   0xc6e00bf3, 0xd5a79147, 0x06ca6351, 0x14292967,
   0x27b70a85, 0x2e1b2138, 0x4d2c6dfc, 0x53380d13,
   0x650a7354, 0x766a0abb, 0x81c2c92e, 0x92722c85,
   0xa2bfe8a1, 0xa81a664b, 0xc24b8b70, 0xc76c51a3,
   0xd192e819, 0xd6990624, 0xf40e3585, 0x106aa070,
   0x19a4c116, 0x1e376c08, 0x2748774c, 0x34b0bcb5,
   0x391c0cb3, 0x4ed8aa4a, 0x5b9cca4f, 0x682e6ff3,
   0x748f82ee, 0x78a5636f, 0x84c87814, 0x8cc70208,
   0x90befffa, 0xa4506ceb, 0xbef9a3f7, 0xc67178f2]

/-- Rotate a word right by `count` places, for `count` between 1 and 31. -/
def rotateRight (word count : UInt32) : UInt32 :=
  (word >>> count) ||| (word <<< (32 - count))

def extendSchedule (words : Array UInt32) : Array UInt32 :=
  let size := words.size
  let near := words.getD (size - 2) 0
  let far := words.getD (size - 15) 0
  let mixNear := rotateRight near 17 ^^^ rotateRight near 19 ^^^ (near >>> 10)
  let mixFar := rotateRight far 7 ^^^ rotateRight far 18 ^^^ (far >>> 3)
  words.push
    (mixNear + words.getD (size - 7) 0 + mixFar + words.getD (size - 16) 0)

def schedule (block : Array UInt32) : Array UInt32 :=
  Nat.repeat extendSchedule 48 block

def round (s : State) (constant word : UInt32) : State :=
  let bigE := rotateRight s.e 6 ^^^ rotateRight s.e 11 ^^^ rotateRight s.e 25
  let choice := (s.e &&& s.f) ^^^ (~~~s.e &&& s.g)
  let first := s.h + bigE + choice + constant + word
  let bigA := rotateRight s.a 2 ^^^ rotateRight s.a 13 ^^^ rotateRight s.a 22
  let majority := (s.a &&& s.b) ^^^ (s.a &&& s.c) ^^^ (s.b &&& s.c)
  { a := first + (bigA + majority)
    b := s.a
    c := s.b
    d := s.c
    e := s.d + first
    f := s.e
    g := s.f
    h := s.g }

def rounds : List UInt32 -> List UInt32 -> State -> State
  | constant :: constants, word :: words, s => rounds constants words (round s constant word)
  | _, _, s => s

def compress (s : State) (block : Array UInt32) : State :=
  let t := rounds roundConstants (schedule block).toList s
  { a := s.a + t.a
    b := s.b + t.b
    c := s.c + t.c
    d := s.d + t.d
    e := s.e + t.e
    f := s.f + t.f
    g := s.g + t.g
    h := s.h + t.h }

def pad (message : List UInt8) : List UInt8 :=
  let size := message.length
  message ++ 0x80 :: (List.replicate ((119 - size % 64) % 64) 0 ++ bigEndian 8 (8 * size))

/-- Four bytes at a time, most significant first; a shorter rest is dropped. -/
def toWords : List UInt8 -> List UInt32
  | a :: b :: c :: d :: rest =>
      ((a.toUInt32 <<< 24) ||| (b.toUInt32 <<< 16) ||| (c.toUInt32 <<< 8) ||| d.toUInt32)
        :: toWords rest
  | _ => []

def absorb (progress : State × Array UInt32) (word : UInt32) : State × Array UInt32 :=
  let words := progress.2.push word
  if words.size = 16 then (compress progress.1 words, #[]) else (progress.1, words)

def wordBytes (word : UInt32) : List UInt8 :=
  [(word >>> 24).toUInt8, (word >>> 16).toUInt8, (word >>> 8).toUInt8, word.toUInt8]

def State.digest (s : State) : Bytes32 :=
  { toList :=
      wordBytes s.a ++ wordBytes s.b ++ wordBytes s.c ++ wordBytes s.d ++
        wordBytes s.e ++ wordBytes s.f ++ wordBytes s.g ++ wordBytes s.h
    length_toList := rfl }

end Sha256

def sha256 (message : List UInt8) : Bytes32 :=
  ((Sha256.toWords (Sha256.pad message)).foldl Sha256.absorb (Sha256.initialState, #[])).1.digest

end Cosigning
