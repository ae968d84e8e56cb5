import Cosigning.Main
import Cosigning.Proofs.Agreement
import Cosigning.Proofs.Custody.Closing
import Cosigning.Proofs.Custody.Completion
import Cosigning.Proofs.Custody.LastGiven
import Cosigning.Proofs.Musig.AdaptorBinding
import Cosigning.Proofs.Musig.AdaptorRun
import Cosigning.Proofs.Musig.NonceSafety
import Cosigning.Proofs.Musig.SignerOrder
import Cosigning.Proofs.Musig.Tampering
import Cosigning.Proofs.Policy.Binomial
import Cosigning.Proofs.Policy.Counting
import Cosigning.Proofs.Policy.Enumeration
import Cosigning.Proofs.Policy.Percentages
import Cosigning.Proofs.Script.Decoding
import Cosigning.Proofs.Script.JointLeaf
import Cosigning.Proofs.Tree.KeyPath
import Cosigning.Proofs.Tree.Limits
import Cosigning.Proofs.Tree.Rebuilding
import Cosigning.Proofs.Tree.Uniform
import Cosigning.Proofs.Wire.RoundMessage
