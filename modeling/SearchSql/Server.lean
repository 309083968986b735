import SearchSql.Json.Reader
import SearchSql.Request.Compile
import SearchSql.Response
import SearchSql.Schema.Mapping
import SearchSql.Session

/-!
Calls to the search server.
-/

namespace SearchSql

/-- The usual reason of a status code. -/
def statusReason : Nat → String
  | 100 => "Continue"
  | 101 => "Switching Protocols"
  | 102 => "Processing"
  | 103 => "Early Hints"
  | 200 => "OK"
  | 201 => "Created"
  | 202 => "Accepted"
  | 203 => "Non Authoritative Information"
  | 204 => "No Content"
  | 205 => "Reset Content"
  | 206 => "Partial Content"
  | 207 => "Multi-Status"
  | 208 => "Already Reported"
  | 226 => "IM Used"
  | 300 => "Multiple Choices"
  | 301 => "Moved Permanently"
  | 302 => "Found"
  | 303 => "See Other"
  | 304 => "Not Modified"
  | 305 => "Use Proxy"
  | 307 => "Temporary Redirect"
  | 308 => "Permanent Redirect"
  | 400 => "Bad Request"
  | 401 => "Unauthorized"
  | 402 => "Payment Required"
  | 403 => "Forbidden"
  | 404 => "Not Found"
  | 405 => "Method Not Allowed"
  | 406 => "Not Acceptable"
  | 407 => "Proxy Authentication Required"
  | 408 => "Request Timeout"
  | 409 => "Conflict"
  | 410 => "Gone"
  | 411 => "Length Required"
  | 412 => "Precondition Failed"
  | 413 => "Payload Too Large"
  | 414 => "URI Too Long"
  | 415 => "Unsupported Media Type"
  | 416 => "Range Not Satisfiable"
  | 417 => "Expectation Failed"
  | 418 => "I'm a teapot"
  | 421 => "Misdirected Request"
  | 422 => "Unprocessable Entity"
  | 423 => "Locked"
  | 424 => "Failed Dependency"
  | 425 => "Too Early"
  | 426 => "Upgrade Required"
  | 428 => "Precondition Required"
  | 429 => "Too Many Requests"
  | 431 => "Request Header Fields Too Large"
  | 451 => "Unavailable For Legal Reasons"
  | 500 => "Internal Server Error"
  | 501 => "Not Implemented"
  | 502 => "Bad Gateway"
  | 503 => "Service Unavailable"
  | 504 => "Gateway Timeout"
  | 505 => "HTTP Version Not Supported"
  | 506 => "Variant Also Negotiates"
  | 507 => "Insufficient Storage"
  | 508 => "Loop Detected"
  | 510 => "Not Extended"
  | 511 => "Network Authentication Required"
  | _ => "<unknown status code>"

/-- A status code with its reason. -/
def statusText (status : Nat) : String := toString status ++ " " ++ statusReason status

namespace Server

/-- An address without the slashes at its end. -/
def baseUrl (url : String) : String :=
  String.ofList (url.toList.reverse.dropWhile (· == '/')).reverse

/-- The body of an answer. Only answers of success count. -/
def readReply (url : String) : Reply → Except Error Json
  | .dropped => .error (.server (.unreachable url))
  | .answer status body =>
    if 200 ≤ status ∧ status < 300 then
      match Json.parse? body with
      | some value => .ok value
      | none => .error .json
    else .error (.server (.status url (statusText status) body))

/-- Makes a call and reads its answer. -/
def send (call : Call) : Session Json := do
  Session.ofExcept (readReply call.url (← Session.exchange call))

/-- The address of the mapping of an index. -/
def mappingUrl (base index : String) : String := baseUrl base ++ "/" ++ index ++ "/_mapping"

def searchUrl (base : String) (r : Request) : String := baseUrl base ++ "/" ++ r.searchPath

/-- Fetches the types of the fields of an index. -/
def fetchMapping (base index : String) : Session Schema := do
  return Schema.ofMapping (← send (.get (mappingUrl base index)))

/-- Runs a search. -/
def search (base : String) (r : Request) : Session Response := do
  Session.ofExcept (Response.ofBody (← send (.post (searchUrl base r) r.body)))

end Server

end SearchSql
