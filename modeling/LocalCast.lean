import LocalCast.Server.OperatorReach
import LocalCast.Server.Plaintext
import LocalCast.Server.Fingerprint
import LocalCast.Server.Published
import LocalCast.Auth.Approval
import LocalCast.Auth.Lockout
import LocalCast.Auth.Credentials
import LocalCast.Auth.Signing
import LocalCast.Uploads.Integrity
import LocalCast.Uploads.Uploader
import LocalCast.Uploads.Endless
import LocalCast.Uploads.Volumes
import LocalCast.Print.Finished
import LocalCast.Print.Attribution
import LocalCast.Library.Writable
import LocalCast.Library.Unreachable
import LocalCast.Library.Reconcile
import LocalCast.Webdav.StreamMode
import LocalCast.Webdav.OneAnswer
import LocalCast.Webdav.Auth
import LocalCast.Http.Invisible
import LocalCast.Http.Advertised
import LocalCast.Http.Listing
import LocalCast.Http.Matrix
import LocalCast.Events.Bus
import LocalCast.Events.ExactlyOnce
import LocalCast.Events.Gap
import LocalCast.Desktop.Whole
import LocalCast.Desktop.Exclusive
import LocalCast.Desktop.NetEdge
import LocalCast.Edge.Restart
import LocalCast.Edge.DryRun
import LocalCast.Client.SingleFlight
import LocalCast.Client.SignOut
import LocalCast.Client.Honest
import LocalCast.Edge.Coherent
import LocalCast.Edge.SignOut
import LocalCast.Edge.Followers
import LocalCast.Auth.PairingLink
import LocalCast.Server.Expiry
import LocalCast.Http.Satisfiable
import LocalCast.Client.SseChunks
import LocalCast.Client.Candidates
import LocalCast.Server.LanStatus
import LocalCast.Edge.DirKey
import LocalCast.Foundations.UriEncode
import LocalCast.Webdav.Href
import LocalCast.Foundations.Xml
import LocalCast.Foundations.XmlText
import LocalCast.Webdav.Multistatus
import LocalCast.Foundations.Casing
import LocalCast.Foundations.Base64
import LocalCast.Client.Certificates
import LocalCast.Client.Fingerprints
import LocalCast.Foundations.PromiseChain
import LocalCast.Print.Order
import LocalCast.Foundations.TokenBucket
import LocalCast.Auth.RateLimit
import LocalCast.Auth.Admission
import LocalCast.Foundations.Asn1
import LocalCast.Server.Der
import LocalCast.Foundations.Framing
import LocalCast.Foundations.JsonText
import LocalCast.Desktop.Stdout
import LocalCast.Foundations.AtomicFile
import LocalCast.Edge.ConfigStore
import LocalCast.Edge.ControlApi
import LocalCast.Db.Migrate
import LocalCast.Client.SessionVault
import LocalCast.Uploads.Sender
import LocalCast.Client.Hub
import LocalCast.Desktop.PairingPrompt
import LocalCast.Auth.Delivery
import LocalCast.Client.Pairing
import LocalCast.Desktop.Preflight
import LocalCast.Http.OperatorNetwork
import LocalCast.Client.ServiceWorker
