import MetaTx.Value

/-!
# Networks

Chain addresses carry the name of their network in front. A network is given by a
number; those without a name of their own share one.
-/

namespace MetaTx.Network

/-- The networks that have a name. -/
def names : List (Int × String) := [
  (1, "avax"), (2, "cascade"), (3, "denali"), (4, "everest"), (5, "fuji"), (10, "testing"),
  (12345, "local")]

/-- The name of all other networks. -/
def fallback : String := "custom"

/-- The name of a network. -/
def hrp (network : Int) : String := (names.lookup network).getD fallback

/-- The name of a network given by a value of any kind, which may equal a number. -/
def hrpOf (network : Value) : String :=
  match network.asInteger? with
  | some n => hrp n
  | none => fallback

end MetaTx.Network
