import MeasuredIdentity.Base64
import MeasuredIdentity.Boot
import MeasuredIdentity.Bytes
import MeasuredIdentity.Calendar
import MeasuredIdentity.Credentials
import MeasuredIdentity.Curve.Ecdsa
import MeasuredIdentity.Curve.Key
import MeasuredIdentity.Curve.P256
import MeasuredIdentity.Der.Capacity
import MeasuredIdentity.Der.Decoder
import MeasuredIdentity.Der.Element
import MeasuredIdentity.Der.Primitive
import MeasuredIdentity.Der.Tag
import MeasuredIdentity.Der.Time
import MeasuredIdentity.DeviceSecret
import MeasuredIdentity.Enrollment.CommandLine
import MeasuredIdentity.Enrollment.Dialogue
import MeasuredIdentity.Enrollment.Files
import MeasuredIdentity.Enrollment.Layout
import MeasuredIdentity.Enrollment.LinkMap
import MeasuredIdentity.Enrollment.Plan
import MeasuredIdentity.Enrollment.Report
import MeasuredIdentity.Enrollment.SecretText
import MeasuredIdentity.Error
import MeasuredIdentity.Hash.Hmac
import MeasuredIdentity.Hash.Sha256
import MeasuredIdentity.KeyDerivation
import MeasuredIdentity.Main
import MeasuredIdentity.Measurement
import MeasuredIdentity.Pem
import MeasuredIdentity.Proofs.AddressDigits
import MeasuredIdentity.Proofs.BigEndian
import MeasuredIdentity.Proofs.BootStages
import MeasuredIdentity.Proofs.CertificateAssembly
import MeasuredIdentity.Proofs.CertificateBinding
import MeasuredIdentity.Proofs.CertificateBuilders
import MeasuredIdentity.Proofs.CertificateCodec
import MeasuredIdentity.Proofs.CertificateFile
import MeasuredIdentity.Proofs.Conversation
import MeasuredIdentity.Proofs.CreatedRequest
import MeasuredIdentity.Proofs.CredentialChain
import MeasuredIdentity.Proofs.CurveGroup
import MeasuredIdentity.Proofs.DayCount
import MeasuredIdentity.Proofs.DeclaredKey
import MeasuredIdentity.Proofs.DeviceData
import MeasuredIdentity.Proofs.EffectiveId
import MeasuredIdentity.Proofs.ElementCodec
import MeasuredIdentity.Proofs.EmbeddedValue
import MeasuredIdentity.Proofs.EncodingSize
import MeasuredIdentity.Proofs.EnrollmentReplay
import MeasuredIdentity.Proofs.ExtensionCodec
import MeasuredIdentity.Proofs.FieldCodec
import MeasuredIdentity.Proofs.FileTreeLaws
import MeasuredIdentity.Proofs.FirstCandidate
import MeasuredIdentity.Proofs.GeneratedIds
import MeasuredIdentity.Proofs.HexDigits
import MeasuredIdentity.Proofs.IdGrammar
import MeasuredIdentity.Proofs.ImageLayout
import MeasuredIdentity.Proofs.Interview
import MeasuredIdentity.Proofs.IssueCapacity
import MeasuredIdentity.Proofs.IssueFailure
import MeasuredIdentity.Proofs.IssuedCredentials
import MeasuredIdentity.Proofs.IssuedDocuments
import MeasuredIdentity.Proofs.JoinedPaths
import MeasuredIdentity.Proofs.KeyLayout
import MeasuredIdentity.Proofs.LinkMapRows
import MeasuredIdentity.Proofs.NameCodec
import MeasuredIdentity.Proofs.PemArmor
import MeasuredIdentity.Proofs.PemCodec
import MeasuredIdentity.Proofs.PointForms
import MeasuredIdentity.Proofs.PrimeField
import MeasuredIdentity.Proofs.PrimitiveCodec
import MeasuredIdentity.Proofs.ReceivedCertificate
import MeasuredIdentity.Proofs.Reception
import MeasuredIdentity.Proofs.RequestCanonical
import MeasuredIdentity.Proofs.RequestVerification
import MeasuredIdentity.Proofs.RoundTrip
import MeasuredIdentity.Proofs.SecretDigits
import MeasuredIdentity.Proofs.SeedOrigin
import MeasuredIdentity.Proofs.Sequencing
import MeasuredIdentity.Proofs.SignatureCodec
import MeasuredIdentity.Proofs.SignatureScheme
import MeasuredIdentity.Proofs.StableIdentity
import MeasuredIdentity.Proofs.ToolOutcome
import MeasuredIdentity.Proofs.UniqueEncoding
import MeasuredIdentity.Proofs.UtcTimeCodec
import MeasuredIdentity.Proofs.ValidityBounds
import MeasuredIdentity.Proofs.WordsAndLines
import MeasuredIdentity.Proofs.WorkingState
import MeasuredIdentity.Registration
import MeasuredIdentity.Text.Buffer
import MeasuredIdentity.Text.Hex
import MeasuredIdentity.Text.HexBytes
import MeasuredIdentity.Text.Printable
import MeasuredIdentity.Text.Quoted
import MeasuredIdentity.Text.Utf8
import MeasuredIdentity.Text.Words
import MeasuredIdentity.X509.AlternativeName
import MeasuredIdentity.X509.Certificate
import MeasuredIdentity.X509.CompositeDeviceId
import MeasuredIdentity.X509.EcPrivateKey
import MeasuredIdentity.X509.Extension
import MeasuredIdentity.X509.Issue
import MeasuredIdentity.X509.KeyUsage
import MeasuredIdentity.X509.Name
import MeasuredIdentity.X509.PublicKeyInfo
import MeasuredIdentity.X509.Request
import MeasuredIdentity.X509.Signature
import MeasuredIdentity.X509.Validity
