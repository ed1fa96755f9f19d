import Vetting.Backend.Remote
import Vetting.Web.Url

/-!
Contract: telling a service about jobs over the web.

Owns:
- the address of the service's jobs;
- what is refused before anything is sent;
- what is said when nothing can be sent.

Does not own: what a service answers.
-/

namespace Vetting

open Web (Url)

/-- A service that jobs are handed to. -/
structure JobService where
  endpoint : String
  token? : Option String
deriving DecidableEq, Inhabited

namespace JobService

/-- The address of the service's jobs; slashes at the end of the endpoint are dropped. -/
def jobsUrl (service : JobService) : String :=
  String.ofList ((service.endpoint.toList.reverse.dropWhile (· = '/')).reverse) ++ "/jobs"

/-- Whether a text can be sent in the head of a message: it has no control but tabs. -/
def fitsHead (text : String) : Bool :=
  text.toList.all fun character => character == '\t' || !Web.isControl character

/-- The characters that the name of a host in an address may have, but not one in the head of a
message. -/
def unnamedCharacters : List Char := ['"', '\x60', '\x7b', '\x7d']

/-- Whether the head of a message can name the host of an address. -/
def canName (url : Url) : Bool :=
  match url.host? with
  | some (some (.name name)) =>
    name.toList.all fun character => !unnamedCharacters.contains character
  | _ => true

/-- What is said about a message that cannot be made. -/
private def unmade (url? : Option Url) : BackendFault :=
  .submission (match url? with
    | some url => "builder error for url (" ++ url.text ++ ")"
    | none => "builder error")

/-- Where a message about a job goes to, if one can be made. -/
def destination (service : JobService) (notice : JobNotice) : Except BackendFault Url := do
  let some url := Url.read? service.jobsUrl | throw (unmade none)
  if !url.hasHost then throw (unmade (some url))
  if !fitsHead notice.idempotencyKey || !service.token?.all fitsHead then throw (unmade none)
  let url := url.withoutCredentials
  if url.scheme != "http" && url.scheme != "https" then throw (unmade (some url))
  if !canName url then throw (unmade (some url))
  return url

/-- What becomes of a job when no message gets through. -/
def unsent (service : JobService) (notice : JobNotice) : BackendFault :=
  match service.destination notice with
  | .ok url => .submission ("error sending request for url (" ++ url.text ++ ")")
  | .error fault => fault

end JobService

end Vetting
