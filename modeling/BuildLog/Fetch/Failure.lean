import BuildLog.Text.Decimal

/-!
# Failures of a request

Why a request for the log or the job's status gave no answer. Polling tries again after each of
them; `isRetryable` says whether that is likely to help.

* `isRetryable_status_iff`: of the answers with a failure status, those of an overloaded or broken
  server can be tried again.
-/

namespace BuildLog

/-- Why a request gave no answer. -/
inductive Failure where
  /-- No connection was made. -/
  | unreachable (url reason : String)
  | timedOut (url : String)
  /-- The server answered with a failure status. -/
  | status (url : String) (code : Nat)
  /-- The request could not be sent. -/
  | rejected (url reason : String)
  /-- The answer broke off. -/
  | unreadable (url reason : String)
  /-- The answer was not understood. -/
  | malformed (url reason : String)
  deriving DecidableEq, Repr

namespace Failure

def quoted (url : String) : String := "'" ++ url ++ "'"

def message : Failure → String
  | .unreachable url reason => "cannot reach " ++ quoted url ++ ": " ++ reason
  | .timedOut url => "request to " ++ quoted url ++ " timed out"
  | .status url code => quoted url ++ " returned HTTP " ++ decimal code
  | .rejected url reason => "request to " ++ quoted url ++ " failed: " ++ reason
  | .unreadable url reason => "failed to read response from " ++ quoted url ++ ": " ++ reason
  | .malformed url reason => "malformed response from " ++ quoted url ++ ": " ++ reason

/-- Whether trying again is likely to help. -/
def isRetryable : Failure → Bool
  | .unreachable .. | .timedOut .. | .unreadable .. => true
  | .status _ code => 500 ≤ code || code = 429 || code = 408
  | .rejected .. | .malformed .. => false

theorem isRetryable_status_iff (url : String) (code : Nat) :
    (Failure.status url code).isRetryable = true ↔ 500 ≤ code ∨ code = 429 ∨ code = 408 := by
  simp [isRetryable, or_assoc]

end Failure

end BuildLog
