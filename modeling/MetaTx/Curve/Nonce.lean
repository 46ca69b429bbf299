import MetaTx.Hash.Hmac

/-!
# Deterministic nonces

A generator of random bits over HMAC-SHA-256, and what is drawn from it. Its seed is the secret
scalar followed by the digest, both as numbers below the group order.
-/

namespace MetaTx

/-- The state that nonces are drawn from. -/
structure NonceSource where
  key : Bytes
  value : Bytes

namespace NonceSource

/-- Absorbs data into the key, then moves the value on. -/
def update (s : NonceSource) (data : Bytes) : NonceSource :=
  let key := hmac s.key (s.value ++ data)
  ⟨key, hmac key s.value⟩

def ofSeed (seed : Bytes) : NonceSource :=
  let s := update ⟨List.replicate 32 0, List.replicate 32 1⟩ (0 :: seed)
  s.update (1 :: seed)

/-- The next 32 bytes, and the source from which to draw again if they do not serve. -/
def next (s : NonceSource) : Nat × NonceSource :=
  let value := hmac s.key s.value
  (Bytes.toNat value, update ⟨s.key, value⟩ [0])

/-- What the first of at most `fuel` numbers gives that gives anything. -/
def first? {α : Type} (f : Nat → Option α) : (fuel : Nat) → NonceSource → Option α
  | 0, _ => none
  | fuel + 1, source =>
    let (k, source) := source.next
    match f k with
    | some a => some a
    | none => first? f fuel source

theorem exists_of_first? {α : Type} {f : Nat → Option α} {a : α} {fuel : Nat} {s : NonceSource}
    (h : first? f fuel s = some a) : ∃ k, f k = some a := by
  induction fuel generalizing s with
  | zero => cases h
  | succ fuel ih =>
    simp only [first?] at h
    split at h
    · next b hb =>
      cases h
      exact ⟨_, hb⟩
    · exact ih h

end NonceSource

end MetaTx
