import MetaTx.Number.Double

/-!
# Shortest decimal text of a double

The fewest digits that read back as the same double, and of those the nearest to
it. A decimal reads back when it lies between the midpoints to the neighbouring
doubles, the midpoints included for an even mantissa.
-/

namespace MetaTx.Double

/-- A positive decimal `digits * 10 ^ exponent`. -/
structure Decimal where
  digits : Nat
  exponent : Int

/-- `n * 2 ^ e` over a common denominator that makes powers of two and ten whole. -/
private def scale (n : Nat) (base : Nat) (e : Int) (den : Nat) : Nat :=
  if 0 ≤ e then n * Nat.pow base e.toNat * den else n * den / Nat.pow base (-e).toNat

/-- The largest `k` with `10 ^ k ≤ v / den`, searched downwards from `k`. -/
private def magnitude (v den : Nat) : (fuel : Nat) → (k : Int) → Int
  | 0, k => k
  | fuel + 1, k => if scale 1 10 k den ≤ v then k else magnitude v den fuel (k - 1)

/-- The decimal with `n` digits nearest to `v / den` that lies in the interval. -/
private def withDigits? (v low high den : Nat) (closed : Bool) (top : Int) (n : Nat) :
    Option Decimal :=
  let e := top - ((n : Int) - 1)
  let unit := scale 1 10 e den
  let below := v / unit
  let inside (d : Nat) : Bool :=
    let x := d * unit
    if closed then low ≤ x && x ≤ high else low < x && x < high
  let near := v - below * unit
  let far := (below + 1) * unit - v
  let downFirst := near < far || (near == far && below % 2 == 0)
  let (first, second) := if downFirst then (below, below + 1) else (below + 1, below)
  if inside first then some ⟨first, e⟩ else if inside second then some ⟨second, e⟩ else none

/-- The shortest decimal of `mantissa * 2 ^ exponent`, for a positive mantissa. -/
def shortest (mantissa : Nat) (exponent : Int) : Decimal :=
  -- Every quantity below is a whole multiple of `1 / den`.
  let den := Nat.pow 2 1080 * Nat.pow 10 345
  let v := scale mantissa 2 exponent den
  let half := scale 1 2 (exponent - 1) den
  let lower := if mantissa = hiddenBit ∧ -1074 < exponent then half / 2 else half
  let closed := mantissa % 2 == 0
  let top := magnitude v den 700 310
  ((List.range 17).findSome? fun i =>
    withDigits? v (v - lower) (v + half) den closed top (i + 1)).getD ⟨mantissa, exponent⟩

/-- How a double is written: positionally inside a range of decimal exponents, with an
exponent of at least two digits outside it, and always with a mark of not being whole. -/
structure Format where
  leastPositional : Int
  firstExponential : Int

private def padded (n : Nat) : String :=
  let s := toString n
  if s.length < 2 then "0" ++ s else s

private def zeros (n : Nat) : List Char := List.replicate n '0'

/-- The text of a positive decimal whose first digit stands at `10 ^ top`. -/
private def render (format : Format) (d : Decimal) : String :=
  -- Trailing zeros carry no information and would move the point.
  let cs := (toString d.digits).toList
  let kept := (cs.reverse.dropWhile (· == '0')).reverse
  let top : Int := d.exponent + cs.length - 1
  if format.leastPositional ≤ top ∧ top < format.firstExponential then
    if 0 ≤ top then
      let whole := kept.take (top.toNat + 1)
      let part := kept.drop (top.toNat + 1)
      String.ofList (whole ++ zeros (top.toNat + 1 - whole.length) ++
        '.' :: (if part.isEmpty then ['0'] else part))
    else String.ofList ('0' :: '.' :: zeros ((-top).toNat - 1) ++ kept)
  else
    let mantissa := match kept with
      | [] => []
      | [c] => [c]
      | c :: rest => c :: '.' :: rest
    String.ofList mantissa ++ (if top < 0 then "e-" else "e+") ++ padded top.natAbs

/-- The text of a double in a format. -/
def toText (format : Format) (x : Double) : String :=
  match x.shape with
  | .nan => "nan"
  | .infinite negative => if negative then "-inf" else "inf"
  | .finite negative m e =>
    (if negative then "-" else "") ++
      (if m = 0 then "0.0" else render format (shortest m e))

end MetaTx.Double
