import MetaTx.Service.Answer

/-!
# Sessions with the key service

What happens around a computation: the requests that the key service is sent and what it
answers, the connections that are opened to it, and the notices that are left for whoever
reads the logs. The answers to come are given beforehand. A failure ends a computation,
but what happened before it stays.
-/

namespace MetaTx

namespace Service

/-- What the service is asked. -/
inductive Request
  | publicKey (keyId : String)
  | sign (keyId : String) (digest : Bytes)
  deriving DecidableEq

namespace Request

def operation : Request → Operation
  | publicKey _ => .publicKey
  | sign .. => .sign

def keyId : Request → String
  | publicKey keyId => keyId
  | sign keyId _ => keyId

end Request

end Service

/-- How much a notice matters. -/
inductive Level
  | warning
  | error
  deriving DecidableEq

/-- What is left for whoever reads the logs. -/
structure Notice where
  level : Level
  text : String
  deriving DecidableEq

/-- A notice as a line of a log. -/
def Notice.line (n : Notice) : String :=
  match n.level with
  | .warning => "WARNING: " ++ n.text
  | .error => "ERROR: " ++ n.text

/-- What happened, and which answers are still to come. -/
structure Session where
  /-- What the service will answer, the next answer first. -/
  answers : List Service.Answer := []
  requests : List Service.Request := []
  /-- The regions to which connections were opened. -/
  connections : List String := []
  notices : List Notice := []

/-- A computation in a session. -/
abbrev Run := ExceptT Error (StateM Session)

namespace Session

/-- What a computation comes to, as a value: an error ends only the computation itself. -/
def attempt {α : Type} (r : Run α) : Run (Except Error α) :=
  tryCatch (Except.ok <$> r) fun e => return .error e

/-- Leaves a notice. -/
def notify (level : Level) (text : String) : Run Unit :=
  modify fun s => { s with notices := s.notices ++ [⟨level, text⟩] }

/-- Opens a connection to the service in a region. -/
def connect (region : String) : Run Unit :=
  modify fun s => { s with connections := s.connections ++ [region] }

/-- The next answer, once the request is sent. -/
def exchange (request : Service.Request) : Run (Option Service.Answer) :=
  modifyGet fun s =>
    (s.answers.head?,
      { s with requests := s.requests ++ [request], answers := s.answers.tail })

/-- Reports a failure once it is noted, if it is one. -/
def report {α : Type} (request : Service.Request) :
    Except Fault Service.Failure → Run α
  | .error fault => throw (.fault fault)
  | .ok failure => do
    let operation := request.operation
    notify .error
      s!"KMS {operation.name} error for {request.keyId}: {failure.text operation}"
    if failure.isLookedUp then throw (.remote (.service operation failure))
    else throw (.fault .wrongType)

/-- Sends a request. A failure of the service is noted before it is reported. -/
def ask (request : Service.Request) : Run (List (String × Value)) := do
  match ← exchange request with
  | some (.given entries) => return entries
  | some (.refused response) => report request (Service.Failure.ofResponse response)
  | some (.failed name details) => report request (Service.Failure.ofName name details)
  | none => throw (.fault .noAnswer)

end Session

end MetaTx
