import MetaTx.Value.Literal

/-!
# Failures of the key service

What can go wrong when the remote key service is called: the service answers with an
error of its own, or the call never reaches it. Each failure has a code, a text, and a
hint whether the caller may try again.
-/

namespace MetaTx.Service

/-- What the service can be asked to do. -/
inductive Operation
  | sign
  | publicKey
  deriving DecidableEq

def Operation.name : Operation → String
  | sign => "Sign"
  | publicKey => "GetPublicKey"

/-- How a request can fail. -/
inductive Failure
  /-- The service answered with an error, perhaps after some retries of its own client. -/
  | refused (code message : Value) (retries? : Option Value)
  | unreachable (url : String)
  | readTimeout (url : String)
  | connectTimeout (url : String)
  | closed (url : String)
  | noCredentials
  | badParameters (report : String)
  | noRegion

namespace Failure

/-- The code under which callers see the failure: the one that the service gave, of any kind,
or the name of what kept the request from being sent. -/
def code : Failure → Value
  | refused code _ _ => code
  | unreachable _ => .text "EndpointConnectionError"
  | readTimeout _ => .text "ReadTimeoutError"
  | connectTimeout _ => .text "ConnectTimeoutError"
  | closed _ => .text "ConnectionClosedError"
  | noCredentials => .text "NoCredentialsError"
  | badParameters _ => .text "ParamValidationError"
  | noRegion => .text "NoRegionError"

/-- Whether a code can be looked up among others; a collection cannot. -/
def isLookedUp (failure : Failure) : Bool :=
  match failure.code with
  | .list _ | .map _ => false
  | _ => true

def text (operation : Operation) : Failure → String
  | refused code message retries? =>
    let tried := match retries? with
      | some count => " (reached max retries: " ++ count.display ++ ")"
      | none => ""
    "An error occurred (" ++ code.display ++ ") when calling the " ++ operation.name ++
      " operation" ++ tried ++ ": " ++ message.display
  | unreachable url => s!"Could not connect to the endpoint URL: \"{url}\""
  | readTimeout url => s!"Read timeout on endpoint URL: \"{url}\""
  | connectTimeout url => s!"Connect timeout on endpoint URL: \"{url}\""
  | closed url =>
    s!"Connection was closed before we received a valid response from endpoint URL: \"{url}\"."
  | noCredentials => "Unable to locate credentials"
  | badParameters report => "Parameter validation failed:\n" ++ report
  | noRegion => "You must specify a region."

/-- The codes of the service that may pass by themselves. -/
def passingCodes : List String := [
  "ThrottlingException", "KMSInternalException", "DependencyTimeoutException",
  "KeyUnavailableException", "LimitExceededException"]

/-- Whether the same call may succeed later. -/
def isRetryable : Failure → Bool
  | refused (.text code) _ _ => passingCodes.contains code
  | refused .. => false
  | unreachable _ | readTimeout _ | connectTimeout _ | closed _ => true
  | noCredentials | badParameters _ | noRegion => false

/-- What the caller is told; two codes of the service have a text of their own. -/
def message (operation : Operation) (failure : Failure) : String :=
  let plain := s!"KMS {operation.name} failed: {failure.text operation}"
  match failure with
  | refused (.text "AccessDeniedException") _ _ =>
    "Access denied to KMS key. Check IAM permissions."
  | refused (.text "NotFoundException") _ _ => "KMS key not found. Check key ID/ARN."
  | _ => plain

end Failure

end MetaTx.Service
