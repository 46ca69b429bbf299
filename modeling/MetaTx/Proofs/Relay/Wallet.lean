import MetaTx.Proofs.Relay.TypedData

/-!
# Which requests a wallet can sign

A wallet that signs by itself has nothing but the payload of typed data, and every request without
a suffix has one. The name of its type is any text, though, and stands in the payload both as the
primary type and as a key beside the type of domains. The rules for typed data take some names for
something else, and then there is no digest to sign. Below these names are told exactly.
-/

namespace MetaTx

open TypedData (isArray isBasic coreName isSelfContained)

/-! ## Names -/

namespace TypedData

theorem coreName_ne_of_bracket {name : String} (harray : isArray name = true)
    (hbracket : '[' ∈ name.toList) : coreName name ≠ name := by
  intro hcore
  rw [coreName, if_pos harray] at hcore
  rw [← hcore, String.toList_ofList] at hbracket
  have hbefore := List.all_eq_true.mp (List.all_takeWhile (p := (· != '['))) '[' hbracket
  simp at hbefore

/-- The name of an array stands for itself only if the array is one of basic values. -/
theorem isSelfContained_iff (name : String) :
    isSelfContained name = true ↔
      (isArray name = true → '[' ∈ name.toList ∧ isBasic (coreName name) = true) := by
  by_cases harray : isArray name = true
  · by_cases hbracket : '[' ∈ name.toList
    · have hcore := coreName_ne_of_bracket harray hbracket
      simp [isSelfContained, isOpened, harray, hbracket, hcore]
    · simp [isSelfContained, isOpened, harray, hbracket]
  · have hcore : coreName name = name := by rw [coreName, if_neg harray]
    simp [isSelfContained, isOpened, harray, hcore]

end TypedData

namespace Relay

/-- The names that a payload has another meaning for: that of the type of domains, and those of the
basic types that a request has fields of. -/
def takenNames : List String := ["EIP712Domain", "address", "uint256", "bytes"]

theorem isViewable_iff (name : String) :
    IsViewable name ↔ name ∉ takenNames ∧
      (isArray name = true → '[' ∈ name.toList ∧ isBasic (coreName name) = true) := by
  rw [← TypedData.isSelfContained_iff]
  constructor
  · intro h
    refine ⟨?_, h.selfContained⟩
    intro htaken
    simp only [takenNames, List.mem_cons, List.not_mem_nil, or_false] at htaken
    rcases htaken with hname | hname | hname | hname
    · exact h.domain hname
    · exact h.fields ("from", "address") (by decide) hname
    · exact h.fields ("value", "uint256") (by decide) hname
    · exact h.fields ("data", "bytes") (by decide) hname
  · rintro ⟨htaken, hself⟩
    simp only [takenNames, List.mem_cons, List.not_mem_nil, or_false, not_or] at htaken
    obtain ⟨hdomain, haddress, huint, hbytes⟩ := htaken
    refine ⟨hdomain, ?_, hself⟩
    intro member hmember
    simp only [requestMembers, List.mem_cons, List.not_mem_nil, or_false] at hmember
    rcases hmember with rfl | rfl | rfl | rfl | rfl | rfl | rfl <;> assumption

end Relay

/-! ## The result -/

namespace RelayBuilder

open Relay

/-- **A wallet can sign a request unless its type has a name of another meaning.** A built relay
transaction without a suffix has a payload of typed data. The rules for typed data come to a digest
of it exactly if the name of its type is not taken, and is no name of an array, except of one of
basic values. -/
theorem exists_typedData_digest_iff {b : RelayBuilder} {tx : RelayTx} (h : b.build = .ok tx)
    (hsuffix : tx.request.typeSuffix = "") :
    ∃ payload, tx.typedData = .ok payload ∧
      ((∃ digest, TypedData.digest payload = .ok digest) ↔
        tx.request.typeName ∉ takenNames ∧
          (isArray tx.request.typeName = true → '[' ∈ tx.request.typeName.toList ∧
            isBasic (coreName tx.request.typeName) = true)) := by
  refine ⟨tx.payload, RelayTx.typedData_eq hsuffix, ?_⟩
  rw [← isViewable_iff]
  constructor
  · rintro ⟨digest, hdigest⟩
    exact RelayTx.isViewable_of_digest hdigest
  · intro hname
    obtain ⟨digest, hdigest, -⟩ := RelayTx.digest_payload (isChecked_of_build h) hsuffix hname
    exact ⟨digest, hdigest⟩

theorem exists_typedData_digest_sample :
    RelayTx.sample.request.typeSuffix = "" ∧
      ∃ payload, RelayTx.sample.typedData = .ok payload ∧
        ∃ digest, TypedData.digest payload = .ok digest := by
  obtain ⟨payload, hpayload, hiff⟩ := exists_typedData_digest_iff build_sample rfl
  exact ⟨rfl, payload, hpayload, hiff.mpr ⟨by decide, by decide⟩⟩

/-- The sample under the name of the type of domains. -/
def takenSample : RelayBuilder := sample.set .typeName (.text "EIP712Domain")

/-- A request is built under a taken name, and its digest can be signed here, but a wallet comes to
none. -/
theorem typedData_digest_takenSample :
    ∃ tx payload hash, takenSample.build = .ok tx ∧ tx.request.typeSuffix = "" ∧
      tx.digest = .ok hash ∧ tx.typedData = .ok payload ∧
      TypedData.digest payload = .error (.fault .typeMismatch) := by
  have hbuild : takenSample.build = .ok { RelayTx.sample with
      request := { RelayTx.sample.request with typeName := "EIP712Domain" } } := rfl
  obtain ⟨hash, hhash, -⟩ := (isChecked_of_build hbuild).exists_digest
  refine ⟨_, _, hash, hbuild, rfl, hhash, RelayTx.typedData_eq rfl, ?_⟩
  rw [TypedData.digest, RelayTx.preimage_payload_of_domainType rfl]
  rfl

end RelayBuilder

end MetaTx
