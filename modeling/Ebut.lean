import Ebut.Core.AccountableFile
import Ebut.Core.BbsProof
import Ebut.Core.Client
import Ebut.Core.ElligatorCodec
import Ebut.Core.FileEncryption
import Ebut.Core.FileProof
import Ebut.Core.Gap
import Ebut.Core.Gf25519
import Ebut.Core.NonMembership
import Ebut.Core.Nonce
import Ebut.Core.NonceBatch
import Ebut.Core.Option1Encryption
import Ebut.Core.ResponseFormat
import Ebut.Core.RevocationProof
import Ebut.Core.RistrettoPoint
import Ebut.Core.Server
import Ebut.Core.System
import Ebut.Core.Upload
import Ebut.Core.WireFormat
import Ebut.Library.Alike
import Ebut.Library.Allowance
import Ebut.Library.Bincode
import Ebut.Library.BoundedRead
import Ebut.Library.ByteBits
import Ebut.Library.Convergents
import Ebut.Library.EvenPoints
import Ebut.Library.FiveLimbs
import Ebut.Library.Hypergeometric
import Ebut.Library.IntegerResponse
import Ebut.Library.JacobiQuartic
import Ebut.Library.OpenGaps
import Ebut.Library.Samples
import Ebut.Library.SortedList
import Ebut.Library.TwistedEdwards
import Ebut.Theory.AccountableFile
import Ebut.Theory.Arithmetic
import Ebut.Theory.Audit
import Ebut.Theory.AuditGuarantee
import Ebut.Theory.AuditPolicy
import Ebut.Theory.BatchTranscripts
import Ebut.Theory.BatchedEq
import Ebut.Theory.Batching
import Ebut.Theory.BbsProof
import Ebut.Theory.BlockBatching
import Ebut.Theory.BloomFilter
import Ebut.Theory.CanonicalForm
import Ebut.Theory.ChallengeCoverage
import Ebut.Theory.ContextBinding
import Ebut.Theory.Disclosure
import Ebut.Theory.Elligator
import Ebut.Theory.ElligatorCodec
import Ebut.Theory.EvenPoint
import Ebut.Theory.Failure
import Ebut.Theory.FieldFormat
import Ebut.Theory.FileDecryption
import Ebut.Theory.FileLengths
import Ebut.Theory.FileProof
import Ebut.Theory.Gap
import Ebut.Theory.Gf25519
import Ebut.Theory.GracePeriod
import Ebut.Theory.HiddenFileProof
import Ebut.Theory.Idempotency
import Ebut.Theory.InverseSquareRoot
import Ebut.Theory.KeyBinding
import Ebut.Theory.LifeCycle
import Ebut.Theory.Malleability
import Ebut.Theory.MerklePaths
import Ebut.Theory.Minting
import Ebut.Theory.NonMembership
import Ebut.Theory.NonRevocation
import Ebut.Theory.NonRevocationSoundness
import Ebut.Theory.NonceBatch
import Ebut.Theory.NonceReplay
import Ebut.Theory.Nullifiers
import Ebut.Theory.Option1Decryption
import Ebut.Theory.PointEncoding
import Ebut.Theory.RateLimit
import Ebut.Theory.Refresh
import Ebut.Theory.Retention
import Ebut.Theory.RevocationList
import Ebut.Theory.RistrettoFormat
import Ebut.Theory.RistrettoPoint
import Ebut.Theory.SameX
import Ebut.Theory.Selectors
import Ebut.Theory.SpendLeakage
import Ebut.Theory.Transcripts
import Ebut.Theory.Unlinkability
import Ebut.Theory.Upload
import Ebut.Theory.V3BatchedEq
import Ebut.Theory.WireFormat
