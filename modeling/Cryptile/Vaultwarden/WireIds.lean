import Cryptile.Vaultwarden.ChallengeBody

/-
  WireIds — the tag of a provider id, read back as a wire id

  A challenge carries ids of 64 bits, a token request one of eight. So a tag leads
  back to its id where the wire has room for it, and to no id at all elsewhere:
  the number in `unknown(n)` is refused, it is not cut to size.
-/

namespace Cryptile
open Text

theorem tagToWireId_unknown (n : Nat) : tagToWireId ("unknown(" ++ toString n ++ ")") =
    if n ≤ 255 then some (UInt8.ofNat n) else none := by
  have htotp : "unknown(" ++ toString n ++ ")" ≠ "totp" := unknownTag_ne (by decide)
  have hemail : "unknown(" ++ toString n ++ ")" ≠ "email" := unknownTag_ne (by decide)
  have hwebauthn : "unknown(" ++ toString n ++ ")" ≠ "webauthn" := unknownTag_ne (by decide)
  have hfront : stripPrefix ("unknown(" ++ toString n ++ ")") "unknown(" = some (toString n ++ ")") := by
    rw [String.append_assoc]
    exact stripPrefix_append _ _
  have hback : stripSuffix (toString n ++ ")") ")" = some (toString n) := stripSuffix_append _ _
  rw [tagToWireId, if_neg htotp, if_neg hemail, if_neg hwebauthn, hfront]
  simp only [Option.bind_eq_bind, Option.bind_some, hback, parseUint_toString]
  split <;> rfl

/-- Every id's tag is read back as the id, if the id fits a byte. -/
theorem tagToWireId_idToTag (n : Nat) : tagToWireId (idToTag n) =
    if n ≤ 255 then some (UInt8.ofNat n) else none := by
  unfold idToTag
  split
  · decide
  · decide
  · decide
  · exact tagToWireId_unknown n

/-- Tags tell the ids of a challenge apart, and lead back to those that fit the wire. -/
theorem wire_id_inverts_tag (n : UInt64) :
    (∀ m : UInt64, idToTag m.toNat = idToTag n.toNat → m = n) ∧
    (n.toNat ≤ 255 → ∃ wire, tagToWireId (idToTag n.toNat) = some wire ∧ wire.toNat = n.toNat) ∧
    (255 < n.toNat → tagToWireId (idToTag n.toNat) = none) := by
  refine ⟨?_, ?_, ?_⟩
  · intro m h
    exact UInt64.toNat_inj.mp (idToTag_injective h)
  · intro h
    refine ⟨UInt8.ofNat n.toNat, by rw [tagToWireId_idToTag, if_pos h], ?_⟩
    rw [UInt8.toNat_ofNat']
    exact Nat.mod_eq_of_lt (Nat.lt_succ_of_le h)
  · intro h
    rw [tagToWireId_idToTag, if_neg (Nat.not_le.mpr h)]

/-- The first id the wire has no room for has a tag that leads nowhere. -/
theorem id_256_is_off_the_wire : idToTag (256 : UInt64).toNat = "unknown(256)" ∧
    tagToWireId "unknown(256)" = none ∧
    ¬ ∀ n : UInt64, ∃ wire, tagToWireId (idToTag n.toNat) = some wire ∧ wire.toNat = n.toNat := by
  have hnone : tagToWireId "unknown(256)" = none := tagToWireId_unknown 256
  refine ⟨rfl, hnone, ?_⟩
  intro h
  obtain ⟨wire, hwire, -⟩ := h 256
  rw [show idToTag (256 : UInt64).toNat = "unknown(256)" from rfl, hnone] at hwire
  cases hwire

end Cryptile
