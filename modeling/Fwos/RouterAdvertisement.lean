import Fwos.Rust.Ip

/-!
# RDNSS options of Router Advertisements

`rdnss_servers` reads the recursive DNS servers that a received packet names. The
packet is whatever a neighbour sent. Indexing and slicing are partial here, so that
a packet on which the source would panic has no result.

`rdnss_servers_exact`: every packet has a result, and it is the servers of the
RDNSS options that the packet holds completely.
-/

namespace Fwos.Ra

open Rust

abbrev Bytes := List UInt8

def routerAdvert : UInt8 := 134

def rdnss : UInt8 := 25

/-- `from_be_bytes`. -/
def fromBeBytes (bytes : Bytes) : Nat :=
  bytes.foldl (fun value byte => value * 256 + byte.toNat) 0

/-- `Ipv6Addr::from` of sixteen octets. -/
def ipv6FromOctets (octets : Bytes) : Ipv6Addr := BitVec.ofNat 128 (fromBeBytes octets)

/-- `bytes[first..last]`. -/
def slice (bytes : Bytes) (first last : Nat) : Option Bytes :=
  if first ≤ last ∧ last ≤ bytes.length then some ((bytes.take last).drop first) else none

/-- `chunks_exact(16)`; a shorter rest is left out. -/
def chunksExact16 (bytes : Bytes) : List Bytes :=
  if 16 ≤ bytes.length then bytes.take 16 :: chunksExact16 (bytes.drop 16) else []
termination_by bytes.length
decreasing_by
  rw [List.length_drop]
  omega

/-- The servers of the option of this length at the head of the options. -/
def optionServers (options : Bytes) (length : Nat) : Option (List (Ipv6Addr × Nat)) := do
  if (← options[0]?) == rdnss && length ≥ 24 then
    let lifetime := fromBeBytes [← options[4]?, ← options[5]?, ← options[6]?, ← options[7]?]
    let addresses ← slice options 8 length
    return (chunksExact16 addresses).map fun address => (ipv6FromOctets address, lifetime)
  else return []

theorem length_of_slice {bytes rest : Bytes} {first : Nat}
    (h : slice bytes first bytes.length = some rest) : rest = bytes.drop first := by
  unfold slice at h
  split at h
  · rw [List.take_length] at h
    exact (Option.some.inj h).symm
  · cases h

/-- The loop over the options, with the servers found before. -/
def readOptions (servers : List (Ipv6Addr × Nat)) (options : Bytes) :
    Option (List (Ipv6Addr × Nat)) :=
  if 8 ≤ options.length then
    match options[1]? with
    | none => none
    | some units =>
        if _ : units.toNat * 8 = 0 ∨ units.toNat * 8 > options.length then some servers
        else
          match optionServers options (units.toNat * 8),
              _ : slice options (units.toNat * 8) options.length with
          | some found, some rest => readOptions (servers ++ found) rest
          | _, _ => none
  else some servers
termination_by options.length
decreasing_by
  rename_i hs
  rw [length_of_slice hs, List.length_drop]
  omega

def rdnssServers (packet : Bytes) : Option (List (Ipv6Addr × Nat)) :=
  if packet.head? != some routerAdvert || packet.length < 16 then some []
  else (slice packet 16 packet.length).bind (readOptions [])

/-! ## Packets -/

/-- The first sixteen bytes of a Router Advertisement. -/
structure Header where
  bytes : Bytes
  type : bytes.head? = some routerAdvert
  length : bytes.length = 16

/-- An option: its type, its length in units of eight bytes, and the rest of that
many bytes. -/
structure NdOption where
  type : UInt8
  units : UInt8
  body : Bytes
  length : body.length + 2 = units.toNat * 8

def NdOption.bytes (option : NdOption) : Bytes := option.type :: option.units :: option.body

/-- What follows the last complete option. -/
structure Tail where
  bytes : Bytes
  incomplete : bytes.length < 8 ∨
    ∀ units, bytes[1]? = some units → units = 0 ∨ units.toNat * 8 > bytes.length

def packetOf (header : Header) (options : List NdOption) (tail : Tail) : Bytes :=
  header.bytes ++ options.flatMap NdOption.bytes ++ tail.bytes

/-- The whole addresses in these bytes. -/
def wholeAddresses (bytes : Bytes) : List Ipv6Addr :=
  (List.range (bytes.length / 16)).map fun i => ipv6FromOctets ((bytes.drop (16 * i)).take 16)

/-- The servers that an option names, with its lifetime. -/
def NdOption.servers (option : NdOption) : List (Ipv6Addr × Nat) :=
  if option.type = rdnss ∧ 24 ≤ option.bytes.length then
    (wholeAddresses (option.bytes.drop 8)).map fun address =>
      (address, fromBeBytes ((option.bytes.drop 4).take 4))
  else []

namespace RaLemmas

theorem chunksExact16_eq (bytes : Bytes) :
    (chunksExact16 bytes).map ipv6FromOctets = wholeAddresses bytes := by
  fun_induction chunksExact16 bytes with
  | case1 bytes hle ih =>
    have hcount : bytes.length / 16 = (bytes.drop 16).length / 16 + 1 := by
      rw [List.length_drop]
      omega
    unfold wholeAddresses at ih ⊢
    rw [List.map_cons, ih, hcount, List.range_succ_eq_map, List.map_cons, List.map_map]
    congr 1
    refine List.map_congr_left fun i _ => ?_
    simp only [Function.comp_apply, List.drop_drop]
    rw [show 16 + 16 * i = 16 * i.succ by omega]
  | case2 bytes hlt =>
    have : bytes.length / 16 = 0 := by omega
    rw [wholeAddresses, this]
    rfl

theorem units_pos (option : NdOption) : 0 < option.units.toNat := by
  have := option.length
  omega

theorem bytes_length (option : NdOption) : option.bytes.length = option.units.toNat * 8 := by
  have := option.length
  unfold NdOption.bytes
  simp only [List.length_cons]
  omega

/-- An option of at least eight bytes, by its first bytes. -/
theorem exists_first_bytes (option : NdOption) : ∃ a b c d e f rest,
    option.bytes = option.type :: option.units :: a :: b :: c :: d :: e :: f :: rest := by
  have hl := option.length
  have hp := units_pos option
  obtain ⟨type, units, body, length⟩ := option
  dsimp only at hl hp
  match body, hl with
  | a :: b :: c :: d :: e :: f :: rest, _ => exact ⟨a, b, c, d, e, f, rest, rfl⟩
  | [], hl | [_], hl | [_, _], hl | [_, _, _], hl | [_, _, _, _], hl | [_, _, _, _, _], hl =>
    simp only [List.length_cons, List.length_nil] at hl
    omega

theorem optionServers_eq (option : NdOption) (rest : Bytes) :
    optionServers (option.bytes ++ rest) (option.units.toNat * 8) = some option.servers := by
  obtain ⟨a, b, c, d, e, f, more, hb⟩ := exists_first_bytes option
  have hlen := bytes_length option
  have hslice (h : 24 ≤ option.units.toNat * 8) :
      slice (option.bytes ++ rest) 8 (option.units.toNat * 8) = some (option.bytes.drop 8) := by
    unfold slice
    rw [if_pos ⟨by omega, by rw [List.length_append]; omega⟩, List.take_left' hlen]
  unfold optionServers NdOption.servers
  rw [hlen]
  by_cases h : option.type = rdnss ∧ 24 ≤ option.units.toNat * 8
  · rw [if_pos h]
    obtain ⟨ht, h24⟩ := h
    have hs := hslice h24
    rw [hb] at hs ⊢
    simp only [List.cons_append, List.getElem?_cons_zero, List.getElem?_cons_succ,
      Option.bind_eq_bind, Option.bind_some, ht, beq_self_eq_true, Bool.true_and,
      decide_eq_true_eq, h24, if_true] at hs ⊢
    rw [hs]
    simp only [Option.bind_some, List.drop_succ_cons, List.drop_zero, ← chunksExact16_eq,
      List.map_map]
    rfl
  · rw [if_neg h, hb]
    have hcond : ¬ (option.type == rdnss && decide (option.units.toNat * 8 ≥ 24)) = true := by
      simpa using h
    simp only [List.cons_append, List.getElem?_cons_zero, Option.bind_eq_bind, Option.bind_some]
    rw [if_neg hcond]
    rfl

theorem readOptions_tail (servers : List (Ipv6Addr × Nat)) (tail : Tail) :
    readOptions servers tail.bytes = some servers := by
  unfold readOptions
  split
  next h8 =>
    obtain ⟨units, hu⟩ : ∃ units, tail.bytes[1]? = some units :=
      ⟨_, List.getElem?_eq_getElem (by omega)⟩
    have hinc := (tail.incomplete.resolve_left (by omega)) units hu
    rw [hu]
    dsimp only
    rw [dif_pos]
    exact hinc.imp (fun h => by rw [h]; rfl) id
  next => rfl

theorem readOptions_eq (servers : List (Ipv6Addr × Nat)) (options : List NdOption) (tail : Tail) :
    readOptions servers (options.flatMap NdOption.bytes ++ tail.bytes) =
      some (servers ++ options.flatMap NdOption.servers) := by
  induction options generalizing servers with
  | nil =>
    rw [List.flatMap_nil, List.flatMap_nil, List.nil_append, List.append_nil]
    exact readOptions_tail servers tail
  | cons option options ih =>
    rw [List.flatMap_cons, List.flatMap_cons, List.append_assoc, ← List.append_assoc servers]
    have hlen := bytes_length option
    have hpos := units_pos option
    generalize hrest : options.flatMap NdOption.bytes ++ tail.bytes = rest at ih ⊢
    have h8 : 8 ≤ (option.bytes ++ rest).length := by
      rw [List.length_append]
      omega
    have hone : (option.bytes ++ rest)[1]? = some option.units := rfl
    have hslice : slice (option.bytes ++ rest) (option.units.toNat * 8)
        (option.bytes ++ rest).length = some rest := by
      unfold slice
      rw [if_pos ⟨by rw [List.length_append]; omega, Nat.le_refl _⟩, List.take_length,
        List.drop_left' hlen]
    unfold readOptions
    rw [if_pos h8, hone]
    dsimp only
    rw [dif_neg (by rw [List.length_append]; omega)]
    split
    next found rest' hf hs =>
      rw [optionServers_eq] at hf
      rw [hslice] at hs
      cases hf
      cases hs
      exact ih (servers ++ option.servers)
    next hnone =>
      exact absurd (hnone _ _ (optionServers_eq option rest) hslice) id

/-- All bytes after the header are options and a tail. -/
theorem exists_options (bytes : Bytes) :
    ∃ (options : List NdOption) (tail : Tail),
      bytes = options.flatMap NdOption.bytes ++ tail.bytes := by
  induction hn : bytes.length using Nat.strong_induction_on generalizing bytes with
  | _ n ih =>
    by_cases hinc : bytes.length < 8 ∨
        ∀ units, bytes[1]? = some units → units = 0 ∨ units.toNat * 8 > bytes.length
    · exact ⟨[], ⟨bytes, hinc⟩, rfl⟩
    · simp only [not_or, not_forall] at hinc
      obtain ⟨h8, units, hu, hz, hle⟩ := hinc
      match bytes, hu with
      | type :: _ :: body, rfl =>
        have hpos : 0 < units.toNat := by
          rw [Nat.pos_iff_ne_zero]
          exact fun h => hz (UInt8.toNat_inj.mp h)
        simp only [List.length_cons] at hle hn
        obtain ⟨options, tail, hrest⟩ := ih (body.drop (units.toNat * 8 - 2)).length
          (by rw [List.length_drop]; omega) (body.drop (units.toNat * 8 - 2)) rfl
        refine ⟨⟨type, units, body.take (units.toNat * 8 - 2), ?_⟩ :: options, tail, ?_⟩
        · rw [List.length_take]
          omega
        · rw [List.flatMap_cons, List.append_assoc, ← hrest]
          simp [NdOption.bytes]

theorem rdnssServers_packetOf (header : Header) (options : List NdOption) (tail : Tail) :
    rdnssServers (packetOf header options tail) = some (options.flatMap NdOption.servers) := by
  have hl := header.length
  have hhead : (packetOf header options tail).head? = some routerAdvert := by
    unfold packetOf
    rw [List.append_assoc, List.head?_append, header.type]
    rfl
  have hlen : 16 ≤ (packetOf header options tail).length := by
    unfold packetOf
    rw [List.append_assoc, List.length_append]
    omega
  have hslice : slice (packetOf header options tail) 16 (packetOf header options tail).length =
      some (options.flatMap NdOption.bytes ++ tail.bytes) := by
    unfold slice
    rw [if_pos ⟨hlen, Nat.le_refl _⟩, List.take_length]
    unfold packetOf
    rw [List.append_assoc, List.drop_left' hl]
  unfold rdnssServers
  rw [hhead, hslice, if_neg (by simpa using hlen)]
  exact readOptions_eq [] options tail

theorem rdnssServers_other {packet : Bytes}
    (hother : ∀ header options tail, packet ≠ packetOf header options tail) :
    rdnssServers packet = some [] := by
  unfold rdnssServers
  split
  next => rfl
  next hra =>
    simp only [Bool.or_eq_true, bne_iff_ne, ne_eq, decide_eq_true_eq, not_or, not_not,
      not_lt] at hra
    obtain ⟨hhead, hlen⟩ := hra
    obtain ⟨options, tail, hrest⟩ := exists_options (packet.drop 16)
    refine absurd ?_ (hother ⟨packet.take 16, ?_, ?_⟩ options tail)
    · unfold packetOf
      rw [List.append_assoc, ← hrest, List.take_append_drop]
    · rw [List.head?_take, if_neg (by omega), hhead]
    · rw [List.length_take]
      omega

end RaLemmas

open RaLemmas

/-- The servers of a Router Advertisement are those of its RDNSS options, and no
other packet names any. No packet makes the source index outside of it. -/
theorem rdnss_servers_exact :
    (∀ header options tail, rdnssServers (packetOf header options tail) =
      some (options.flatMap NdOption.servers)) ∧
    ∀ packet, (∀ header options tail, packet ≠ packetOf header options tail) →
      rdnssServers packet = some [] :=
  ⟨rdnssServers_packetOf, fun _ => rdnssServers_other⟩

/-- 2001:db8:ff::53 for ten minutes. -/
def resolverOption : NdOption where
  type := rdnss
  units := 3
  body := [0, 0, 0, 0, 2, 88, 32, 1, 13, 184, 0, 255, 0, 0, 0, 0, 0, 0, 0, 0, 0, 83]
  length := by decide

def advertisement : Header where
  bytes := [134, 0, 0, 0, 64, 0, 0, 0, 0, 0, 0, 0, 0, 0, 0, 0]
  type := by decide
  length := by decide

/-- An advertisement with one resolver and a cut option, and a solicitation. -/
theorem rdnss_servers_resolver :
    rdnssServers (packetOf advertisement [resolverOption] ⟨[25, 3, 0, 0], .inl (by decide)⟩) =
      some [(0x20010db800ff00000000000000000053, 600)] ∧
    rdnssServers [133, 0, 0, 0] = some [] := by
  refine ⟨(rdnss_servers_exact.1 _ _ _).trans (by decide), rdnss_servers_exact.2 _ ?_⟩
  intro header options tail h
  have hb : header.bytes <+: [133, 0, 0, 0] :=
    h ▸ ⟨options.flatMap NdOption.bytes ++ tail.bytes, (List.append_assoc ..).symm⟩
  have := hb.length_le
  rw [header.length] at this
  exact absurd this (by decide)

end Fwos.Ra
