/-
StreamingAcn.UniverseId — universe numbers and their multicast groups.

A universe is one stream of up to 512 slots, addressed by a 16-bit number. Numbers 1 to 63999 may
carry data; every number has a multicast group made of its two octets.
-/
import StreamingAcn.Octets
import StreamingAcn.Network.Ipv4

namespace StreamingAcn

abbrev UniverseId := UInt16

namespace UniverseId

/-- Whether a universe of this number may carry data. -/
def isData (u : UniverseId) : Bool := 1 ≤ u ∧ u ≤ 63999

theorem isData_iff {u : UniverseId} : isData u = true ↔ 1 ≤ u.toNat ∧ u.toNat ≤ 63999 := by
  simp only [isData, decide_eq_true_eq, UInt16.le_iff_toNat_le]
  rfl

/-- The multicast group of a universe: 239.255, then the two octets of its number. -/
def group (u : UniverseId) : Network.Ipv4 := ⟨239, 255, Octets.high u, Octets.low u⟩

end UniverseId

end StreamingAcn
