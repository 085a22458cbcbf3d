import SigV4.Signature.Head
import SigV4.Time.Clock
import SigV4.Proofs.Canonical.Exclusion
import SigV4.Proofs.Canonical.Lines
import SigV4.Proofs.Canonical.Listing
import SigV4.Proofs.Canonical.PathForm
import SigV4.Proofs.Canonical.Query
import SigV4.Proofs.Canonical.QueryOctets
import SigV4.Proofs.Canonical.Stack
import SigV4.Proofs.Checksum.Chunks
import SigV4.Proofs.Identity.Environment
import SigV4.Proofs.Identity.Redaction
import SigV4.Proofs.Signature.ChecksumHeader
import SigV4.Proofs.Signature.Coverage
import SigV4.Proofs.Signature.Frame
import SigV4.Proofs.Signature.PayloadHash
import SigV4.Proofs.Signature.Resign
import SigV4.Proofs.Signature.Resemblance
import SigV4.Proofs.Signature.Head
import SigV4.Proofs.Signature.Records
import SigV4.Proofs.Signature.Token
import SigV4.Proofs.Request.Rendering
import SigV4.Proofs.Signature.Failure
import SigV4.Proofs.Signature.StringToSign
import SigV4.Proofs.Time.Stamp
