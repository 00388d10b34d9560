import Mathlib.Tactic

/-!
Error codes of the contract package, the HTTP status each is served with, and the
exception every service throws.
-/

namespace LocalCast.Contract

/-- The stable codes clients branch on. -/
inductive ErrorCode where
  | unauthenticated | tokenExpired | tokenRevoked | devicePending | deviceRevoked
  | pairingInvalid | pairingExpired | pairingConsumed | pairingLocked | rateLimited
  | forbidden | folderClosed | downloadNotAllowed | printNotAllowed | uploadNotAllowed
  | notFound | folderUnavailable | pathEscapesRoot | rangeNotSatisfiable
  | printerNotFound | printerDisabled | unprintableType | spoolerFailed
  | uploadSessionUnknown | uploadOffsetMismatch | uploadTooLarge
  | edgeNotReady | edgeLoginRequired | edgeCertUnavailable | edgeControlUnreachable
  | edgeModeUnsupported
  | badRequest | internal
deriving DecidableEq, Repr

/-- The HTTP status each code is served with. -/
def errorStatus : ErrorCode → ℕ
  | .unauthenticated | .tokenExpired | .tokenRevoked => 401
  | .devicePending | .deviceRevoked => 403
  | .pairingInvalid => 400
  | .pairingExpired => 410
  | .pairingConsumed => 409
  | .pairingLocked | .rateLimited => 429
  | .forbidden => 403
  | .folderClosed => 404
  | .downloadNotAllowed | .printNotAllowed | .uploadNotAllowed => 403
  | .notFound => 404
  | .folderUnavailable => 503
  | .pathEscapesRoot => 400
  | .rangeNotSatisfiable => 416
  | .printerNotFound => 404
  | .printerDisabled => 403
  | .unprintableType => 415
  | .spoolerFailed => 502
  | .uploadSessionUnknown => 404
  | .uploadOffsetMismatch => 409
  | .uploadTooLarge => 413
  | .edgeNotReady | .edgeLoginRequired | .edgeCertUnavailable => 503
  | .edgeControlUnreachable => 502
  | .edgeModeUnsupported | .badRequest => 400
  | .internal => 500

/-- Every code is served as a client or a server error. -/
lemma errorStatus_bounds (c : ErrorCode) : 400 ≤ errorStatus c ∧ errorStatus c < 600 := by
  cases c <;> simp [errorStatus]

/-- `ApiException`: the code and the prose that crosses the wire with it. -/
structure ApiException where
  code : ErrorCode
  message : String
deriving DecidableEq, Repr

/-- The status an exception is served with. -/
def ApiException.status (e : ApiException) : ℕ := errorStatus e.code

end LocalCast.Contract
