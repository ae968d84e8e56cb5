import Cosigning.Bytes

/-!
# Bech32m addresses

An address is a readable part, a separator, and characters of five bits each: the
version, the program, and a checksum over all of it.
-/

namespace Cosigning
namespace Bech32

def alphabet : Array Char :=
  "qpzry9x8gf2tvdw0s3jn54khce6mua7l".toList.toArray

def generators : List UInt32 :=
  [0x3b6a57b2, 0x26508e6d, 0x1ea119fa, 0x3d4233dd, 0x2a1462b3]

def step (checksum value : UInt32) : UInt32 :=
  let top := checksum >>> 25
  let shifted := ((checksum &&& 0x1ffffff) <<< 5) ^^^ value
  generators.zipIdx.foldl
    (fun total entry =>
      if (top >>> UInt32.ofNat entry.2) &&& 1 = 1 then total ^^^ entry.1 else total)
    shifted

def expandReadable (readable : String) : List UInt32 :=
  let codes : List UInt32 := readable.toList.map (fun c => UInt32.ofNat c.toNat)
  List.map (fun code : UInt32 => code >>> 5) codes ++
    (0 :: List.map (fun code : UInt32 => code &&& 31) codes)

def checksum (readable : String) (values : List UInt32) : List UInt32 :=
  let padded := expandReadable readable ++ values ++ List.replicate 6 0
  let total : UInt32 := padded.foldl step 1 ^^^ 0x2bc830a3
  List.map (fun shift : UInt32 => (total >>> shift) &&& 31) [25, 20, 15, 10, 5, 0]

def byteBits (byte : UInt8) : List Bool :=
  List.map (fun place : UInt8 => decide ((byte >>> place) &&& 1 = 1)) [7, 6, 5, 4, 3, 2, 1, 0]

/-- The number that up to five bits write; missing low bits are zero. -/
def groupValue (bits : List Bool) : UInt32 :=
  (List.range 5).foldl
    (fun total place => 2 * total + if bits.getD place false then 1 else 0) 0

def groups : List Bool -> List UInt32
  | [] => []
  | [a] => [groupValue [a]]
  | [a, b] => [groupValue [a, b]]
  | [a, b, c] => [groupValue [a, b, c]]
  | [a, b, c, d] => [groupValue [a, b, c, d]]
  | a :: b :: c :: d :: e :: rest => groupValue [a, b, c, d, e] :: groups rest

def encode (readable : String) (version : UInt32) (program : List UInt8) : String :=
  let values := version :: groups (program.flatMap byteBits)
  let characters := (values ++ checksum readable values).map (fun value =>
    alphabet.getD value.toNat 'q')
  readable ++ "1" ++ String.ofList characters

end Bech32
end Cosigning
