import MetaTx.Error

/-!
# Answers of the key service

What comes back for a request: entries, or an account of what went wrong, given by the
service or by the client that could not reach it. Accounts are untrusted as well. They are
read into failures, unless they lack the shape that all of them have. Answers are read from
text, so the integers in them are short enough to be told again.
-/

namespace MetaTx.Service

/-- What comes back for a request. -/
inductive Answer
  | given (entries : List (String × Value))
  /-- The response of a service that refused the request. -/
  | refused (response : Value)
  /-- What kept the client from sending the request, by its name and details. -/
  | failed (name : String) (details : List (String × Value))

namespace Failure

/-- The entries of a part of a response. -/
def partEntries : Value → Except Fault (List (String × Value))
  | .map entries => .ok entries
  | _ => .error .noEntries

/-- The entries of a response, which can be searched in lists and texts too. -/
def responseEntries : Value → Except Fault (List (String × Value))
  | .map entries => .ok entries
  | .list _ | .text _ => .error .noEntries
  | _ => .error .wrongType

/-- How often the client tried again, if it gave up after that. -/
def retries? (response : List (String × Value)) : Except Fault (Option Value) := do
  match Value.get? "ResponseMetadata" response with
  | none => return none
  | some part =>
    let metadata ← partEntries part
    let gaveUp := (Value.get? "MaxAttemptsReached" metadata).any Value.isTruthy
    return if gaveUp then Value.get? "RetryAttempts" metadata else none

/-- The failure that a response tells. What it leaves open is unknown. -/
def ofResponse (response : Value) : Except Fault Failure := do
  let response ← responseEntries response
  let retries? ← retries? response
  let error ← partEntries ((Value.get? "Error" response).getD (.map []))
  let told (key : String) : Value := (Value.get? key error).getD (.text "Unknown")
  return .refused (told "Code") (told "Message") retries?

/-- The failure that a client names, with the details that its text needs. -/
def ofName (name : String) (details : List (String × Value)) : Except Fault Failure :=
  let detail (key : String) : Except Fault String :=
    match Value.get? key details with
    | some v => .ok v.display
    | none => .error .missingEntry
  match name with
  | "EndpointConnectionError" => unreachable <$> detail "endpoint_url"
  | "ReadTimeoutError" => readTimeout <$> detail "endpoint_url"
  | "ConnectTimeoutError" => connectTimeout <$> detail "endpoint_url"
  | "ConnectionClosedError" => closed <$> detail "endpoint_url"
  | "ParamValidationError" => badParameters <$> detail "report"
  | "NoRegionError" => .ok noRegion
  | _ => .ok noCredentials

end Failure

end MetaTx.Service
