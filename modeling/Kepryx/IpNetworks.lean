import Mathlib.Data.Finset.Card
import Mathlib.Order.Interval.Finset.Nat

/-!
# Addresses and networks

An address is a number below the size of its family, with a scope where the family has one. A
network is a block of addresses whose size is a power of two and whose base is a multiple of
the size. The texts of both are a parameter: they read back what was printed.
-/
namespace Kepryx.IpNetworks

inductive Version where
  | v4 | v6
  deriving DecidableEq, Repr

/-- The number of bits of an address. -/
def Version.bits : Version → ℕ
  | .v4 => 32
  | .v6 => 128

structure Address where
  version : Version
  value : ℕ
  scope : Option String := none
  value_lt : value < 2 ^ version.bits
  deriving DecidableEq

structure Network where
  base : Address
  prefixLen : ℕ
  prefixLen_le : prefixLen ≤ base.version.bits
  aligned : 2 ^ (base.version.bits - prefixLen) ∣ base.value
  deriving DecidableEq

namespace Network

def version (n : Network) : Version := n.base.version

def numAddresses (n : Network) : ℕ := 2 ^ (n.version.bits - n.prefixLen)

def broadcast (n : Network) : ℕ := n.base.value + n.numAddresses - 1

/-- `address in network`: the masked address is the base. -/
def contains (n : Network) (a : Address) : Bool :=
  a.version = n.version && a.value - a.value % n.numAddresses = n.base.value

/-- `a.subnet_of(b)`, for networks of one family. -/
def subnetOf (a b : Network) : Bool := b.base.value ≤ a.base.value && a.broadcast ≤ b.broadcast

/-- The block of addresses of a network. -/
def addresses (n : Network) : Finset ℕ := Finset.Ico n.base.value (n.base.value + n.numAddresses)

theorem numAddresses_pos (n : Network) : 0 < n.numAddresses := Nat.two_pow_pos _

@[simp] theorem mem_addresses {n : Network} {x : ℕ} :
    x ∈ n.addresses ↔ n.base.value ≤ x ∧ x < n.base.value + n.numAddresses := Finset.mem_Ico

theorem card_addresses (n : Network) : n.addresses.card = n.numAddresses := by
  simp [addresses]

/-- Masking an address gives the base exactly for the addresses of the block. -/
theorem contains_iff {n : Network} {a : Address} :
    n.contains a ↔ a.version = n.version ∧ a.value ∈ n.addresses := by
  have hpos := n.numAddresses_pos
  have hdvd : n.numAddresses ∣ n.base.value := n.aligned
  have hmod : n.base.value % n.numAddresses = 0 := Nat.mod_eq_zero_of_dvd hdvd
  simp only [contains, Bool.and_eq_true, decide_eq_true_eq, mem_addresses]
  refine and_congr_right fun _ => ?_
  have hlt := Nat.mod_lt a.value hpos
  have hle := Nat.mod_le a.value n.numAddresses
  constructor
  · intro hbase
    omega
  · rintro ⟨hlow, hhigh⟩
    obtain ⟨d, hd⟩ := Nat.exists_eq_add_of_le hlow
    have hdlt : d < n.numAddresses := by omega
    have hrest : a.value % n.numAddresses = d := by
      rw [hd, Nat.add_mod, hmod, Nat.zero_add, Nat.mod_mod, Nat.mod_eq_of_lt hdlt]
    omega

/-- A network is a subnet of another of its family if and only if its addresses are. -/
theorem subnetOf_iff {a b : Network} : a.subnetOf b ↔ a.addresses ⊆ b.addresses := by
  have ha := a.numAddresses_pos
  have hb := b.numAddresses_pos
  simp only [subnetOf, broadcast, Bool.and_eq_true, decide_eq_true_eq]
  unfold addresses
  rw [Finset.Ico_subset_Ico_iff (by omega)]
  refine and_congr_right fun _ => decide_eq_true_iff.trans ?_
  omega

/-- The private network 10.0.0.0/8. -/
def privateBlock : Network := ⟨⟨.v4, 167772160, none, by decide⟩, 8, by decide, by decide⟩

end Network

/-- The texts of addresses and networks. Reading a network may insist that the base has no
bits below the prefix. What was read is read back from its printed form, and a network is
printed with its prefix, so that the text is no address. -/
structure Texts where
  address : String → Option Address
  network : Bool → String → Option Network
  addressText : Address → String
  networkText : Network → String
  address_text : ∀ {s a}, address s = some a → address (addressText a) = some a
  network_text : ∀ {strict s n}, network strict s = some n →
    ∀ strict', network strict' (networkText n) = some n
  address_networkText : ∀ n, address (networkText n) = none

/-- The texts of one address and one network. -/
def Texts.single (addressText : String) (a : Address) (networkText : String) (n : Network)
    (hne : networkText ≠ addressText) : Texts where
  address s := if s = addressText then some a else none
  network _ s := if s = networkText then some n else none
  addressText _ := addressText
  networkText _ := networkText
  address_text h := by
    split at h
    · rw [if_pos rfl]
      exact h
    · cases h
  network_text h _ := by
    split at h
    · rw [if_pos rfl]
      exact h
    · cases h
  address_networkText _ := if_neg hne

end Kepryx.IpNetworks
