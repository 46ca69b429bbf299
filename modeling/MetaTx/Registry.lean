import MetaTx.Key.File
import MetaTx.Secret
import MetaTx.Settings
import MetaTx.Signer

/-!
# The signer of a process

A process has one signer, made from the settings of the first call that succeeds and kept
until it is reset. A call is in two steps, because fetching the public key of a key of the
service takes time: it begins by looking for the kept signer, and if the key has to be
fetched it ends by storing the new one. A call that fails stores nothing.
-/

namespace MetaTx

/-- A signer that was stored, with its number. -/
structure Stored where
  serial : Nat
  signer : Signer
  deriving DecidableEq

/-- What a process knows of its signer. -/
structure Registry where
  current? : Option Stored := none
  /-- How many signers were stored. -/
  count : Nat := 0
  /-- The settings that were read from the surroundings. -/
  settings? : Option Settings := none

/-- What a call comes to before it has to wait. -/
inductive Begun
  | stored (stored : Stored)
  /-- A signer that is to be stored. -/
  | made (signer : Signer)
  /-- The public key is to be fetched first. -/
  | waiting (key : ServiceKey) (chainId : Int)

namespace Settings

/-- The key that a signer is to hold: from its text, or the first one of the key file. -/
def localKey (s : Settings) (around : Surroundings) : Except Error PrivateKey :=
  match given? s.privateKey?, given? s.keyFile? with
  | some text, _ => do PrivateKey.ofText (← Secret.reveal s.masterKey? text)
  | none, some path => do
    match ← KeyFile.load around.files path with
    | key :: _ => return key
    | [] => throw (.keyChoice (.emptyFile path))
  | none, none => .error (.keyChoice .noLocalKey)

/-- The key of the service that a signer is to use. -/
def serviceKey (s : Settings) (around : Surroundings) : Except Error ServiceKey :=
  match given? s.serviceKeyId? with
  | some keyId =>
    .ok (.ofRegion keyId (some s.region) (around.lookup? "AWS_DEFAULT_REGION"))
  | none => .error (.keyChoice .noRemoteKey)

end Settings

namespace Registry

/-- The first step of a call for the signer. The chain of a new one is told in the log before
its key is looked for. -/
def begin (r : Registry) (settings : Settings) (around : Surroundings) : Except Error Begun :=
  match r.current? with
  | some stored => .ok (.stored stored)
  | none => do
    let choice ← settings.choice
    (Value.int settings.chainId).log
    match choice with
    | .service => return .waiting (← settings.serviceKey around) settings.chainId
    | .held => return .made (.ofKey (← settings.localKey around) (some settings.chainId))

/-- Stores a signer in the place of the current one. -/
def store (r : Registry) (signer : Signer) : Stored × Registry :=
  let stored : Stored := ⟨r.count, signer⟩
  (stored, { r with current? := some stored, count := r.count + 1 })

/-- A call for the signer that nothing comes between. -/
def get (r : Registry) (settings : Settings) (around : Surroundings) :
    Run (Stored × Registry) := do
  match ← r.begin settings around with
  | .stored stored => return (stored, r)
  | .made signer => return r.store signer
  | .waiting key chainId =>
    let signer ← Signer.ofService key (some chainId)
    return r.store signer

/-- Forgets the signer. -/
def reset (r : Registry) : Registry := { r with current? := none }

/-- The settings that are handed over, or else those of the surroundings, which are read
once. -/
def settings (r : Registry) (given? : Option Settings) (around : Surroundings) :
    Except Error (Settings × Registry) :=
  match given?.or r.settings? with
  | some settings => .ok (settings, r)
  | none => do
    let settings ← Settings.read [] around
    return (settings, { r with settings? := some settings })

/-- A call for the signer that reads the settings if it needs them. They stay read also if
the call fails then. -/
def request (r : Registry) (given? : Option Settings) (around : Surroundings) :
    Run (Except Error Stored × Registry) := do
  if let some stored := r.current? then return (.ok stored, r)
  match r.settings given? around with
  | .error e => return (.error e, r)
  | .ok (settings, r) =>
    match ← Session.attempt (r.get settings around) with
    | .ok (stored, r) => return (.ok stored, r)
    | .error e => return (.error e, r)

/-- Forgets the settings that were read. -/
def clearSettings (r : Registry) : Registry := { r with settings? := none }

/-- What may be shown of the signer. -/
structure Report where
  kind : String
  account : String
  chainId? : Option Int
  isHealthy : Bool
  kindName : String

/-- A report on the signer after a look at its health. -/
def report (stored : Stored) : Run Report := do
  let signer := stored.signer
  let isHealthy ← signer.healthCheck
  return ⟨signer.kind, signer.account, signer.chainId?, isHealthy, signer.kindName⟩

end Registry

end MetaTx
