import Cosigning.Hash.Sha256

/-!
# Tagged hashes

A tagged hash feeds the digest of its tag, twice, before the message, so that
the same bytes hashed for two purposes give unrelated digests.  The tags here
are those of Schnorr signatures, Taproot trees and MuSig2.
-/

namespace Cosigning

inductive Tag where
  | tapLeaf
  | tapBranch
  | tapTweak
  | schnorrAux
  | schnorrNonce
  | schnorrChallenge
  | keyList
  | keyCoefficient
  | musigAux
  | musigNonce
  | nonceCoefficient
deriving DecidableEq

namespace Tag

def doubledDigest (text : String) : List UInt8 :=
  let digest := (sha256 text.toUTF8.data.toList).toList
  digest ++ digest

def opening : Tag -> List UInt8
  | tapLeaf => doubledDigest "TapLeaf"
  | tapBranch => doubledDigest "TapBranch"
  | tapTweak => doubledDigest "TapTweak"
  | schnorrAux => doubledDigest "BIP0340/aux"
  | schnorrNonce => doubledDigest "BIP0340/nonce"
  | schnorrChallenge => doubledDigest "BIP0340/challenge"
  | keyList => doubledDigest "KeyAgg list"
  | keyCoefficient => doubledDigest "KeyAgg coefficient"
  | musigAux => doubledDigest "MuSig/aux"
  | musigNonce => doubledDigest "MuSig/nonce"
  | nonceCoefficient => doubledDigest "MuSig/noncecoef"

end Tag

def taggedSha256 (tag : Tag) (message : List UInt8) : Bytes32 :=
  sha256 (tag.opening ++ message)

end Cosigning
