import C0PQLink.NanoPQ.Records
import C0PQLink.NanoPQ.Authorization
import C0PQLink.ReferencePeer.Rejection
import C0PQLink.Arduino.Client
import C0PQLink.Session.Retransmission
import C0PQLink.Session.CommitOutcomes
import C0PQLink.Session.RecordRuns
import C0PQLink.Session.FailureReports
import C0PQLink.Session.Fragmentation
import C0PQLink.Session.HmacInputs
import C0PQLink.Link.StaleAck
import C0PQLink.Link.Preflight
import C0PQLink.Core.MlKem512Overflow
import C0PQLink.Core.MlKem512Cleanup
import C0PQLink.Core.HkdfStream
import C0PQLink.Core.KeccakOutput
import C0PQLink.Link.RecordChannel
import C0PQLink.Core.MlKem512Stream
import C0PQLink.NanoPQ.EpochGuard
import C0PQLink.NanoPQ.AvrE2e
import C0PQLink.NanoPQ.Agreement
import C0PQLink.NanoPQ.JournalAtomicity
import C0PQLink.NanoPQ.LmsVerification
import C0PQLink.Core.MlKem512Flash
import C0PQLink.Core.MlKem512Ring
import C0PQLink.Core.MlKem512Reader
import C0PQLink.NanoPQ.Sha256
import C0PQLink.NanoPQ.Hmac
import C0PQLink.Rfc8554.Signature
import C0PQLink.NanoPQ.LmsSigner
import C0PQLink.NanoPQ.TruncatedSignatures
import C0PQLink.Foundation.StopAndWait
import C0PQLink.Core.MlKem512Callbacks
import C0PQLink.Link.LossyLink
import C0PQLink.Link.Handshake
import C0PQLink.Link.LossTolerance
import C0PQLink.Link.LossyRecords
import C0PQLink.Link.HonestConnect
