import MetaTx.Curve.Modular
import MetaTx.Bytes

/-!
# Other curves with a name

The curves `y² = x³ + a x + b` over prime fields that other keys are on. All that is asked
of them is whether an encoded point is one of theirs.
-/

namespace MetaTx

/-- A curve over a prime field, in short Weierstrass form. -/
structure NamedCurve where
  /-- The size of the field. -/
  p : Nat
  a : Nat
  b : Nat

namespace NamedCurve

/-- A curve with `a = -3`. -/
def withMinusThree (p b : Nat) : NamedCurve := ⟨p, p - 3, b⟩

def p192 : NamedCurve := withMinusThree (Nat.pow 2 192 - Nat.pow 2 64 - 1)
  0x64210519e59c80e70fa7e9ab72243049feb8deecc146b9b1

def p224 : NamedCurve := withMinusThree (Nat.pow 2 224 - Nat.pow 2 96 + 1)
  0xb4050a850c04b3abf54132565044b0b7d7bfd8ba270b39432355ffb4

def p256 : NamedCurve :=
  withMinusThree (Nat.pow 2 256 - Nat.pow 2 224 + Nat.pow 2 192 + Nat.pow 2 96 - 1)
  0x5ac635d8aa3a93e7b3ebbd55769886bc651d06b0cc53b0f63bce3c3e27d2604b

def p384 : NamedCurve :=
  withMinusThree (Nat.pow 2 384 - Nat.pow 2 128 - Nat.pow 2 96 + Nat.pow 2 32 - 1)
  0xb3312fa7e23ee7e4988e056be3f82d19181d9c6efe8141120314088f5013875ac656398d8a2ed19d2a85c8edd3ec2aef

def p521 : NamedCurve := withMinusThree (Nat.pow 2 521 - 1)
  0x0051953eb9618e1c9a1f929a21a0b68540eea2da725b99b315f3b8b489918ef109e156193951ec7e937b1652c0bd3bb1bf073573df883d2c34f1ef451fd46b503f00

def brainpool256 : NamedCurve where
  p := 0xa9fb57dba1eea9bc3e660a909d838d726e3bf623d52620282013481d1f6e5377
  a := 0x7d5a0975fc2c3057eef67530417affe7fb8055c126dc5c6ce94a4b44f330b5d9
  b := 0x26dc5c6ce94a4b44f330b5d9bbd77cbf958416295cf7e1ce6bccdc18ff8c07b6

def brainpool384 : NamedCurve where
  p := 0x8cb91e82a3386d280f5d6f7e50e641df152f7109ed5456b412b1da197fb71123acd3a729901d1a71874700133107ec53
  a := 0x7bc382c63d8c150c3c72080ace05afa0c2bea28e4fb22787139165efba91f90f8aa5814a503ad4eb04a8c7dd22ce2826
  b := 0x04a8c7dd22ce28268b39b55416f0447c2fb77de107dcd2a62e880ea53eeb62d57cb4390295dbc9943ab78696fa504c11

def brainpool512 : NamedCurve where
  p := 0xaadd9db8dbe9c48b3fd4e6ae33c9fc07cb308db3b3c9d20ed6639cca703308717d4d9b009bc66842aecda12ae6a380e62881ff2f2d82c68528aa6056583a48f3
  a := 0x7830a3318b603b89e2327145ac234cc594cbdd8d3df91610a83441caea9863bc2ded5d5aa8253aa10a2ef1c98b9ac8b57f1117a72bf2c7b9e7c1ac4d77fc94ca
  b := 0x3df91610a83441caea9863bc2ded5d5aa8253aa10a2ef1c98b9ac8b57f1117a72bf2c7b9e7c1ac4d77fc94cadc083e67984050b75ebae5dd2809bd638016f723

/-- The number of bytes of a coordinate. -/
def width (curve : NamedCurve) : Nat := Bytes.widthOf curve.p

def rightSide (curve : NamedCurve) (x : Nat) : Nat :=
  (x * x * x + curve.a * x + curve.b) % curve.p

/-- Whether a number is a square of the field. -/
def isSquare (curve : NamedCurve) (n : Nat) : Bool :=
  Modular.pow curve.p n ((curve.p - 1) / 2) ≤ 1

/-- Whether bytes encode a point: both coordinates behind `04`, or behind the parity with
`06`, or the abscissa behind the parity with `02`. -/
def isPoint (curve : NamedCurve) : Bytes → Bool
  | [] => false
  | mark :: body =>
    let x := Bytes.toNat (body.take curve.width)
    let y := Bytes.toNat (body.drop curve.width)
    if mark = 0x02 ∨ mark = 0x03 then
      body.length == curve.width && x < curve.p && curve.isSquare (curve.rightSide x)
    else if mark = 0x04 ∨ mark = 0x06 ∨ mark = 0x07 then
      body.length == 2 * curve.width && x < curve.p && y < curve.p &&
        y * y % curve.p == curve.rightSide x &&
        (mark == 0x04 || (mark == 0x07) == (y % 2 == 1))
    else false

end NamedCurve

end MetaTx
