/-! # Http — what comes back for a request

A request for a document either brings a response or fails on the way. -/

namespace DtoForge.Http

/-- How a request fails on the way. -/
inductive FailureKind where
  /-- No answer came in time. -/
  | timeout
  /-- The answer was refused before it could be looked at. -/
  | refused
  /-- Any other failure. -/
  | other
  deriving DecidableEq, Repr

/-- What comes back for a request. -/
inductive Reply where
  | response (status : Int) (body : String)
  | failure (kind : FailureKind) (message : String)
  deriving DecidableEq, Repr

/-- Whether a status reports an error. -/
def isErrorStatus (status : Int) : Bool :=
  400 ≤ status && status < 600

/-- The reply where there is no network. -/
def offline : Reply := .failure .other "no network"

end DtoForge.Http
