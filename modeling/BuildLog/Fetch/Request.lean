import BuildLog.Fetch.Chunk
import BuildLog.Fetch.JobStatus
import BuildLog.Fetch.Offset
import BuildLog.Url

/-!
# Requests

A request for the log or for the job's status, and what becomes of the server's answer. The log is
asked for from an offset on, which is put behind the query of its address. The answer tells the
offset to go on from in a header.

* `log_of_status`: an answer with a failure status gives no log, whatever else it holds.
-/

namespace BuildLog

/-- An answer of a server. -/
structure Response where
  status : Nat
  /-- The header that tells the offset to go on from. -/
  offsetHeader : Option Text := none
  /-- The text that follows, unless it breaks off. -/
  body : Option Text
  deriving DecidableEq, Repr

/-- What a server does when it is asked. -/
inductive Server where
  | refusing
  | silent
  | answering (response : Response)
  deriving DecidableEq, Repr

namespace Request

/-- The parameter that tells the offset asked for. -/
def offsetParameter : Text := "startLineNumber".toList

/-- The address to ask for the log from an offset on. -/
def logUrl? (url : Text) (offset : Nat) : Option Url :=
  (Url.ofText? url).map (·.withParameter offsetParameter (decimal offset).toList)

/-- Whether an answer has the status of a success. -/
def isSuccess (r : Response) : Bool := 200 ≤ r.status && r.status < 300

/-- Whether answers of a status have no body. -/
def isBodiless (status : Nat) : Bool := status == 204

/-- The mark that may stand before a text to tell its byte order. -/
def byteOrderMark : Char := '\ufeff'

def bodyText : Text → Text
  | c :: s => if c = byteOrderMark then s else c :: s
  | [] => []

/-- Whether a header has a text: it consists of visible ASCII characters and blanks. -/
def isReadable (header : Text) : Bool :=
  header.all fun c => c == '\t' || (0x20 ≤ c.toNat && c.toNat < 0x7F)

/-- The body that a server answers with to a request for an address, and the answer itself. -/
def body (url : Text) (asked : Option Url) (server : Server) : Except Failure (Response × Text) :=
  let name := String.ofList url
  match asked, server with
  | none, _ => .error (.rejected name "not a web address")
  | some _, .refusing => .error (.unreachable name "connection refused")
  | some _, .silent => .error (.timedOut name)
  | some _, .answering r =>
    if !isSuccess r then .error (.status name r.status)
    else if isBodiless r.status then .ok (r, [])
    else
      match r.body with
      | some text => .ok (r, bodyText text)
      | none => .error (.unreadable name "connection closed early")

/-- Ask for the log from an offset on. -/
def log (url : Text) (offset : Nat) (server : Server) : Reply :=
  (body url (logUrl? url offset) server).map fun (r, text) =>
    ⟨text, Offset.ofHeader (r.offsetHeader.filter isReadable)⟩

/-- Ask whether the job is complete. Without an address the job counts as running. -/
def jobCompleted (url : Option Text) (server : Server) : Except Failure Bool :=
  match url with
  | none => .ok false
  | some url =>
    match body url (Url.ofText? url) server with
    | .error failure => .error failure
    | .ok (_, text) =>
      (JobStatus.isCompleted text).mapError fun fault =>
        .malformed (String.ofList url) fault.message

theorem log_of_status {url : Text} {offset : Nat} {asked : Url} {r : Response}
    (ha : logUrl? url offset = some asked) (h : isSuccess r = false) :
    log url offset (.answering r) = .error (.status (String.ofList url) r.status) := by
  simp [log, body, ha, h, Except.map]

end Request

end BuildLog
