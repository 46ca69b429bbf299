import MetaTx.Key.Public

/-!
# Key information

What may be shown of a key: its short address, its account address, and its addresses on
the three chains of some networks. A network listed again replaces what was listed, in
the place where it was.
-/

namespace MetaTx

/-- The addresses of a key on the three chains of a network. -/
structure ChainAddresses where
  x : String
  p : String
  c : String
  deriving DecidableEq

/-- The addresses of a key: its short one, its account, and those of networks. -/
structure KeyInfo where
  shortAddress : String
  account : String
  networks : List (Int × ChainAddresses)

namespace KeyInfo

/-- Puts the addresses of a network into a list. -/
def putNetwork (network : Int) (addresses : ChainAddresses) :
    List (Int × ChainAddresses) → List (Int × ChainAddresses)
  | [] => [(network, addresses)]
  | (n, a) :: rest =>
    if n = network then (n, addresses) :: rest else (n, a) :: putNetwork network addresses rest

/-- A list of networks in which each is listed once. -/
def ofNetworks (shortAddress account : String) (networks : List (Int × ChainAddresses)) :
    KeyInfo where
  shortAddress := shortAddress
  account := account
  networks := networks.foldl (fun acc (n, a) => putNetwork n a acc) []

/-- One line for each address and network, the networks in the order of their numbers. -/
def display (info : KeyInfo) : Except Error String := do
  let networks := info.networks.mergeSort fun a b => a.1 ≤ b.1
  let lines ← networks.mapM fun (n, a) =>
    if Text.isWritable n then .ok s!"network {n}: {a.x} {a.p} {a.c}"
    else .error (.fault .longInteger)
  return "\n".intercalate <|
    ("short_address: " ++ info.shortAddress) :: ("eth_address: " ++ info.account) :: lines

end KeyInfo

/-- What may be shown of a key on one network. -/
def PublicKey.info (key : PublicKey) (network : Int) : Except Error KeyInfo := do
  let x ← key.chainAddress network "X"
  let p ← key.chainAddress network "P"
  let c ← key.chainAddress network "C"
  let short ← key.shortAddress
  return .ofNetworks short key.account [(network, ⟨x, p, c⟩)]

end MetaTx
