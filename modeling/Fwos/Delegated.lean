import Fwos.Addresses
import Fwos.LanAddress

/-!
# The LAN in a delegated prefix

`delegated_lan` places the LAN in the first /64 of a prefix (`bootstrap_values.rs`), and
its texts are parsed again by those that program addresses, Kea and the advertisements.

* `Placed`: what the texts denote lies in the prefix, with the LAN address outside the
  pool.
* `delegatedLanChecked`: the same computation, without a result where a shift is out of
  range.
* `delegated_lan_inside`: each prefix of at most 64 bits is placed, by its bits alone.
-/

namespace Fwos

open Rust LanAddressLemmas

namespace BootstrapValues

/-! ## Shifts -/

/-- `u128::MAX << n`. -/
def shiftMax (n : Nat) : Option Ipv6Addr :=
  if n < 128 then some (BitVec.allOnes 128 <<< n) else none

/-- `u8` subtraction. -/
def checkedSub (a b : Nat) : Option Nat := if b ≤ a then some (a - b) else none

/-- `prefix_mask`. -/
def maskChecked (len : Nat) : Option Ipv6Addr :=
  if len = 0 then some 0 else (checkedSub 128 len).bind shiftMax

/-- `delegated_lan` where an overflow or a shift out of range has no result. -/
def delegatedLanChecked (text : String) : Option (Option DelegatedLan) :=
  match cidr text with
  | some (.v6 address, len) =>
      if len > 64 then some none
      else do
        let mask ← maskChecked len
        let first ← shiftMax 64
        let subnet := address &&& mask &&& first
        return some {
          addressCidr := s!"{displayIpv6 (subnet ||| 1)}/64"
          subnetCidr := s!"{displayIpv6 subnet}/64"
          poolStart := displayIpv6 (subnet ||| 0x100)
          poolEnd := displayIpv6 (subnet ||| 0x1ff) }
  | _ => some none

end BootstrapValues

open BootstrapValues

/-! ## Addresses in a network -/

/-- The addresses with the first bits of a network. -/
def InNetwork (network : Ipv6Addr) (length : Nat) (address : Ipv6Addr) : Prop :=
  address &&& prefixMask 128 length = network &&& prefixMask 128 length

/-- The texts denote a /64 in the prefix, and in it an address and a pool without it. -/
def Placed (lan : DelegatedLan) (delegated : Ipv6Addr) (length : Nat) : Prop :=
  ∃ address subnet start last : Ipv6Addr,
    cidr lan.addressCidr = some (.v6 address, 64) ∧
    cidr lan.subnetCidr = some (.v6 subnet, 64) ∧
    parseIp lan.poolStart = some (.v6 start) ∧ parseIp lan.poolEnd = some (.v6 last) ∧
    (∀ host, InNetwork subnet 64 host → InNetwork delegated length host) ∧
    InNetwork subnet 64 address ∧ InNetwork subnet 64 start ∧ InNetwork subnet 64 last ∧
    start ≤ last ∧ ¬(start ≤ address ∧ address ≤ last)

namespace DelegatedLemmas

/-! ## Texts of IPv6 prefixes -/

/-- No IPv6 address begins with an IPv4 one. -/
theorem parseIp_eq_v6 {text : String} {address : Ipv6Addr} :
    parseIp text = some (.v6 address) ↔ parseIpv6 text = some address := by
  unfold parseIp parseIpv6
  cases begins : readIpv4 text.toList with
  | some read =>
      have none : readIpv6 text.toList = none := by
        rw [readIpv6, readGroups]
        simp [readSeparator, begins]
      rw [none]
      obtain ⟨address', rest⟩ := read
      cases rest <;> simp [parseAll]
  | none =>
      cases readIpv6 text.toList with
      | none => simp [parseAll]
      | some read =>
          obtain ⟨address', rest⟩ := read
          cases rest <;> simp [parseAll]

theorem cidr_eq_v6 {text : String} {address : Ipv6Addr} {length : Nat} :
    cidr text = some (.v6 address, length) ↔ ∃ ip bits, splitOnce text '/' = some (ip, bits) ∧
      parseIpv6 ip = some address ∧ parseU8 bits = some length ∧ length ≤ 128 := by
  simp only [cidr, Option.bind_eq_bind, Option.bind_eq_some_iff, Prod.exists]
  constructor
  · rintro ⟨ip, bits, split, found, parsed, length', bits_eq, h⟩
    by_cases long : length' > if found.isIpv4 then 32 else 128
    · rw [if_pos long] at h
      cases h
    · rw [if_neg long] at h
      cases h
      exact ⟨ip, bits, split, parseIp_eq_v6.mp parsed, bits_eq, Nat.not_lt.mp long⟩
  · rintro ⟨ip, bits, split, parsed, bits_eq, fits⟩
    exact ⟨ip, bits, split, _, parseIp_eq_v6.mpr parsed, length, bits_eq,
      if_neg (Nat.not_lt.mpr fits)⟩

/-! ## The texts of the LAN -/

theorem delegatedLan_eq {text : String} {address : Ipv6Addr} {length : Nat}
    (parsed : cidr text = some (.v6 address, length)) (short : length ≤ 64) :
    delegatedLan text = some {
      addressCidr := s!"{displayIpv6 (address &&& prefixMask 128 length ||| 1)}/64"
      subnetCidr := s!"{displayIpv6 (address &&& prefixMask 128 length)}/64"
      poolStart := displayIpv6 (address &&& prefixMask 128 length ||| 0x100)
      poolEnd := displayIpv6 (address &&& prefixMask 128 length ||| 0x1ff) } := by
  simp only [delegatedLan, parsed]
  rw [if_neg (Nat.not_lt.mpr short)]
  simp only [BitVec.and_assoc, prefixMask_first_subnet short]

theorem delegatedLan_eq_none {text : String}
    (other : ¬∃ address length, cidr text = some (.v6 address, length) ∧ length ≤ 64) :
    delegatedLan text = none := by
  unfold delegatedLan
  split
  next address length parsed =>
    exact if_pos (Nat.lt_of_not_le fun short => other ⟨address, length, parsed, short⟩)
  next => rfl

theorem maskChecked_eq {length : Nat} (short : length ≤ 64) :
    maskChecked length = some (prefixMask 128 length) := by
  unfold maskChecked prefixMask
  split
  next => rfl
  next positive =>
    have inRange : 128 - length < 128 := by omega
    rw [checkedSub, if_pos (by omega), Option.bind_some, shiftMax, if_pos inRange]

theorem mask_of_le {short long : Nat} (h : short ≤ long) :
    prefixMask 128 long &&& prefixMask 128 short = prefixMask 128 short := by
  refine BitVec.eq_of_getLsbD_eq fun i _ => ?_
  rw [Bool.eq_iff_iff]
  simp only [BitVec.getLsbD_and, getLsbD_prefixMask, Bool.and_eq_true, decide_eq_true_eq]
  omega

theorem masked_subnet (address : Ipv6Addr) {length : Nat} (short : length ≤ 64) :
    (address &&& prefixMask 128 length) &&& prefixMask 128 64 = address &&& prefixMask 128 length := by
  rw [BitVec.and_assoc, BitVec.and_comm (prefixMask 128 length), mask_of_le short]

theorem exists_subnet {text : String} {lan : DelegatedLan} (h : delegatedLan text = some lan) :
    ∃ subnet, cidr lan.subnetCidr = some (.v6 subnet, 64) ∧ subnet &&& prefixMask 128 64 = subnet := by
  by_cases parsed : ∃ address length, cidr text = some (.v6 address, length) ∧ length ≤ 64
  · obtain ⟨address, length, parsed, short⟩ := parsed
    rw [delegatedLan_eq parsed short] at h
    obtain rfl := Option.some.inj h
    exact ⟨_, cidr_display _, masked_subnet address short⟩
  · rw [delegatedLan_eq_none parsed] at h
    cases h

theorem delegatedLanChecked_eq (text : String) :
    delegatedLanChecked text = some (delegatedLan text) := by
  unfold delegatedLanChecked delegatedLan
  rcases cidr text with _ | ⟨address | address, length⟩
  · rfl
  · rfl
  · dsimp only
    split
    next => rfl
    next short =>
      have first : shiftMax 64 = some (BitVec.allOnes 128 <<< 64) := if_pos (by decide)
      rw [maskChecked_eq (Nat.not_lt.mp short), first]
      rfl

/-! ## The first /64 -/

/-- Hosts of the first /64 are hosts of the prefix. -/
theorem inNetwork_of_subnet {delegated host : Ipv6Addr} {length : Nat} (short : length ≤ 64)
    (h : InNetwork (delegated &&& prefixMask 128 length) 64 host) :
    InNetwork delegated length host := by
  have masked := congrArg (· &&& prefixMask 128 length) h
  simp only [BitVec.and_assoc, mask_of_le short] at masked
  rw [BitVec.and_self] at masked
  exact masked

variable {subnet : Ipv6Addr}

/-- The low 64 bits are for hosts. -/
theorem inNetwork_or {host : Ipv6Addr} (low : host &&& prefixMask 128 64 = 0#128) :
    InNetwork subnet 64 (subnet ||| host) := by
  rw [InNetwork, BitVec.and_comm, BitVec.and_or_distrib_left, BitVec.and_comm _ host, low,
    BitVec.or_zero, BitVec.and_comm]

theorem toNat_or {host : Ipv6Addr} (masked : subnet &&& prefixMask 128 64 = subnet)
    (low : host.toNat < 2 ^ 64) : (subnet ||| host).toNat = subnet.toNat + host.toNat := by
  have whole : subnet.toNat = 2 ^ 64 * (subnet.toNat / 2 ^ 64) := by
    have zeros : subnet.toNat % 2 ^ 64 = 0 := by
      refine Nat.eq_of_testBit_eq fun i => ?_
      rw [Nat.testBit_mod_two_pow, Nat.zero_testBit, ← masked]
      by_cases inLow : i < 64
      · have free : (prefixMask 128 64).toNat.testBit i = false := by
          rw [BitVec.testBit_toNat]
          exact prefixMask_free (by omega)
        rw [BitVec.toNat_and, Nat.testBit_and, free, Bool.and_false, Bool.and_false]
      · rw [decide_eq_false inLow, Bool.false_and]
    rw [← Nat.div_add_mod subnet.toNat (2 ^ 64), zeros]
    omega
  have added := Nat.two_pow_add_eq_or_of_lt low (subnet.toNat / 2 ^ 64)
  rw [← whole] at added
  rw [BitVec.toNat_or, added]

theorem placed {delegated : Ipv6Addr} {length : Nat} (short : length ≤ 64) :
    Placed {
      addressCidr := s!"{displayIpv6 (delegated &&& prefixMask 128 length ||| 1)}/64"
      subnetCidr := s!"{displayIpv6 (delegated &&& prefixMask 128 length)}/64"
      poolStart := displayIpv6 (delegated &&& prefixMask 128 length ||| 0x100)
      poolEnd := displayIpv6 (delegated &&& prefixMask 128 length ||| 0x1ff) } delegated length := by
  have masked := masked_subnet delegated short
  refine ⟨_, _, _, _, cidr_display _, cidr_display _, parseIp_displayIpv6 _,
    parseIp_displayIpv6 _, fun host => inNetwork_of_subnet short, inNetwork_or (by decide),
    inNetwork_or (by decide), inNetwork_or (by decide), ?_, ?_⟩
  · rw [BitVec.le_def, toNat_or masked (by decide), toNat_or masked (by decide)]
    exact Nat.add_le_add_left (by decide) _
  · rintro ⟨from_start, -⟩
    rw [BitVec.le_def, toNat_or masked (by decide), toNat_or masked (by decide)] at from_start
    exact absurd (Nat.le_of_add_le_add_left from_start) (by decide)

end DelegatedLemmas

open DelegatedLemmas

/-- Each IPv6 prefix of at most 64 bits is placed, all texts of the same bits alike, and
nothing else is. No shift is out of range. -/
theorem delegated_lan_inside (text : String) :
    (∀ address length, cidr text = some (.v6 address, length) → length ≤ 64 →
      ∃ lan, delegatedLan text = some lan ∧ Placed lan address length ∧
        ∀ other address', cidr other = some (.v6 address', length) →
          InNetwork address length address' → delegatedLan other = some lan) ∧
    ((¬∃ address length, cidr text = some (.v6 address, length) ∧ length ≤ 64) →
      delegatedLan text = none) ∧
    delegatedLanChecked text = some (delegatedLan text) := by
  refine ⟨fun address length parsed short => ?_, delegatedLan_eq_none, delegatedLanChecked_eq text⟩
  refine ⟨_, delegatedLan_eq parsed short, placed short, fun other address' parsed' same => ?_⟩
  rw [delegatedLan_eq parsed' short, same]

theorem delegated_lan_inside_expanded :
    delegatedLan "fd53:0001:0001:00ff:0000:0000:0000:0000/56" = delegatedLan "fd53:1:1:ff::/56" ∧
      delegatedLan "fd53:1:1:ff::/65" = none := by
  have parsed : cidr "fd53:0001:0001:00ff:0000:0000:0000:0000/56" =
      some (.v6 0xfd530001000100ff0000000000000000, 56) := by decide +kernel
  have parsed' : cidr "fd53:1:1:ff::/56" =
      some (.v6 0xfd530001000100ff0000000000000000, 56) := by decide +kernel
  obtain ⟨lan, found, -, alike⟩ := (delegated_lan_inside _).1 _ _ parsed (by decide)
  refine ⟨found.trans (alike _ _ parsed' rfl).symm, (delegated_lan_inside _).2.1 ?_⟩
  rintro ⟨address, length, parsed, short⟩
  have long : cidr "fd53:1:1:ff::/65" =
      some (.v6 0xfd530001000100ff0000000000000000, 65) := by decide +kernel
  obtain ⟨-, rfl⟩ := Prod.mk.inj (Option.some.inj (long.symm.trans parsed))
  exact absurd short (by decide)

end Fwos
