import Fwos.Rust.Ip

/-!
# The texts of IPv6 addresses

`Display` writes the groups of an address with the first longest run of zeros left
out; the parser puts as many zeros in the place of the `::`.

* `parseIpv6_displayIpv6`, `parseIp_displayIpv6`: the parser reads back every address.
* `colon_mem_iff`: the colon tells the families apart.
-/

namespace Rust

namespace Ipv6Text

/-! ## Hexadecimal groups -/

theorem digitValue_digitChar {d : Nat} (h : d < 16) : digitValue 16 d.digitChar = some d := by
  have all : ∀ d < 16, digitValue 16 d.digitChar = some d := by decide
  exact all d h

/-- The digits that `Display` writes for a group are those the parser takes. -/
theorem toDigits_read (value : Nat) :
    (∀ c ∈ Nat.toDigits 16 value, (digitValue 16 c).isSome = true) ∧
      (Nat.toDigits 16 value).foldl
        (fun value c => value * 16 + (digitValue 16 c).getD 0) 0 = value := by
  induction value using Nat.strong_induction_on with
  | _ value ih =>
    rw [Nat.toDigits_eq_if (by decide)]
    split
    next hlt => simp [digitValue_digitChar hlt]
    next hle =>
      obtain ⟨hdigits, hvalue⟩ := ih (value / 16) (by omega)
      have hlast := digitValue_digitChar (Nat.mod_lt value (by decide : 0 < 16))
      refine ⟨fun c hc => ?_, ?_⟩
      · rcases List.mem_append.mp hc with hc | hc
        · exact hdigits c hc
        · obtain rfl := List.mem_singleton.mp hc
          rw [hlast]
          rfl
      · rw [List.foldl_append, hvalue]
        simp only [List.foldl_cons, List.foldl_nil, hlast, Option.getD_some]
        omega

theorem readNumber_toDigits {value : Nat} {rest : List Char} (h : value < 65536)
    (hr : ∀ c, rest.head? = some c → (digitValue 16 c).isSome = false) :
    readNumber 16 4 65536 true (Nat.toDigits 16 value ++ rest) = some (value, rest) := by
  obtain ⟨hdigits, hvalue⟩ := toDigits_read value
  have htake : (Nat.toDigits 16 value ++ rest).takeWhile (fun c => (digitValue 16 c).isSome) =
      Nat.toDigits 16 value := by
    rw [List.takeWhile_append_of_pos hdigits]
    cases rest with
    | nil => simp
    | cons c rest => simp [hr c rfl]
  have hlen : (Nat.toDigits 16 value).length ≤ 4 :=
    (Nat.length_toDigits_le_iff (by decide) (by decide)).mpr (by omega)
  have hpos : 0 < (Nat.toDigits 16 value).length := Nat.length_toDigits_pos
  simp only [readNumber, htake, hvalue]
  rw [if_neg, if_neg, if_pos h]
  · simp
  · simp
  · simp only [Bool.or_eq_true, List.isEmpty_iff, decide_eq_true_eq, not_or]
    exact ⟨Nat.toDigits_ne_nil, by omega⟩

theorem readNumber_none {text : List Char}
    (h : ∀ c, text.head? = some c → (digitValue 16 c).isSome = false) :
    readNumber 16 4 65536 true text = none := by
  have htake : text.takeWhile (fun c => (digitValue 16 c).isSome) = [] := by
    cases text with
    | nil => rfl
    | cons c text => simp [h c rfl]
  simp [readNumber, htake]

theorem not_mem_toDigits {c : Char} (h : (digitValue 16 c).isSome = false) (value : Nat) :
    c ∉ Nat.toDigits 16 value := fun hm => by
  rw [(toDigits_read value).1 c hm] at h
  cases h

theorem readIpv4_of_no_dot {text : List Char} (h : '.' ∉ text) : readIpv4 text = none := by
  cases hr : readIpv4Octets text with
  | none => simp [readIpv4, hr]
  | some read =>
    obtain ⟨⟨a, b, c, d⟩, rest⟩ := read
    obtain ⟨dotted, rfl, hd, -⟩ := readIpv4Octets_eq_some.mp hr
    obtain ⟨da, db, dc, dd, -, -, -, -, rfl⟩ := hd.octets
    simp at h

/-! ## Runs of groups -/

/-- The groups after the first one, each with its colon. -/
def moreGroups (groups : List Nat) : List Char :=
  groups.flatMap fun group => ':' :: Nat.toDigits 16 group

def groupChars : List Nat → List Char
  | [] => []
  | group :: groups => Nat.toDigits 16 group ++ moreGroups groups

theorem toList_displayGroups (groups : List Nat) :
    (displayGroups groups).toList = groupChars groups := by
  rw [displayGroups, String.toList_intercalate]
  cases groups with
  | nil => rfl
  | cons group groups =>
    induction groups generalizing group with
    | nil => simp [groupChars, moreGroups, hex]
    | cons next groups ih =>
      simp only [List.map_cons] at ih ⊢
      rw [List.intercalate_cons_cons, ih next]
      simp [groupChars, moreGroups, hex]

theorem dot_not_mem_moreGroups (groups : List Nat) : '.' ∉ moreGroups groups := by
  simp [moreGroups, not_mem_toDigits (c := '.') (by decide)]

theorem dot_not_mem_groupChars (groups : List Nat) : '.' ∉ groupChars groups := by
  cases groups with
  | nil => simp [groupChars]
  | cons group groups =>
    simp [groupChars, dot_not_mem_moreGroups, not_mem_toDigits (c := '.') (by decide)]

/-- Nothing that follows begins with a hexadecimal digit, or with a colon and one. -/
structure Stops (text : List Char) : Prop where
  head : ∀ c, text.head? = some c → (digitValue 16 c).isSome = false
  group : (readChar ':' text).bind (readNumber 16 4 65536 true) = none
  dot : '.' ∉ text

theorem moreGroups_head {groups : List Nat} {text : List Char}
    (h : ∀ c, text.head? = some c → (digitValue 16 c).isSome = false) :
    ∀ c, (moreGroups groups ++ text).head? = some c → (digitValue 16 c).isSome = false := by
  cases groups with
  | nil => exact h
  | cons group groups =>
    rintro c hc
    obtain rfl : ':' = c := by simpa [moreGroups] using hc
    decide

theorem readSeparator_of_no_dot {index : Nat} {text : List Char} (h : '.' ∉ text) :
    readSeparator index readIpv4 text = none := by
  unfold readSeparator
  split
  · exact readIpv4_of_no_dot h
  · cases hc : readChar ':' text with
    | none => rfl
    | some rest =>
      obtain rfl := readChar_eq_some.mp hc
      simp only [List.mem_cons, not_or] at h
      exact readIpv4_of_no_dot h.2

/-- The readers of the remaining groups take exactly the groups before the stop. -/
theorem readGroups_moreGroups {limit index fuel : Nat} {groups : List Nat} {text : List Char}
    (hi : index ≠ 0) (hg : ∀ group ∈ groups, group < 65536) (hs : Stops text)
    (hf : groups.length ≤ fuel) :
    readGroups limit index fuel (moreGroups groups ++ text) = (groups, false, text) := by
  have hdot : ∀ groups, '.' ∉ moreGroups groups ++ text := fun groups => by
    simp [dot_not_mem_moreGroups, hs.dot]
  induction groups generalizing index fuel with
  | nil =>
    cases fuel with
    | zero => rfl
    | succ fuel =>
      have hnone : (if index + 1 < limit then readSeparator index readIpv4 text else none) = none := by
        rw [readSeparator_of_no_dot hs.dot, ite_self]
      simp only [moreGroups, List.flatMap_nil, List.nil_append, readGroups, hnone]
      rw [readSeparator, if_neg hi, hs.group]
  | cons group groups ih =>
    simp only [List.mem_cons, forall_eq_or_imp] at hg
    cases fuel with
    | zero => simp at hf
    | succ fuel =>
      have hnone : (if index + 1 < limit then
          readSeparator index readIpv4 (moreGroups (group :: groups) ++ text) else none) = none := by
        rw [readSeparator_of_no_dot (hdot _), ite_self]
      have htext : moreGroups (group :: groups) ++ text =
          ':' :: (Nat.toDigits 16 group ++ (moreGroups groups ++ text)) := by
        simp [moreGroups]
      rw [readGroups, hnone, htext]
      simp only [readSeparator, if_neg hi, readChar, if_true, Option.bind_some,
        readNumber_toDigits hg.1 (moreGroups_head hs.head)]
      rw [ih (Nat.succ_ne_zero index) hg.2 (Nat.le_of_succ_le_succ hf)]

theorem readGroups_groupChars {limit fuel : Nat} {groups : List Nat} {text : List Char}
    (hg : ∀ group ∈ groups, group < 65536) (hs : Stops text) (hf : groups.length ≤ fuel) :
    readGroups limit 0 fuel (groupChars groups ++ text) = (groups, false, text) := by
  have hdot : '.' ∉ groupChars groups ++ text := by
    simp [dot_not_mem_groupChars, hs.dot]
  have hnone : (if 0 + 1 < limit then
      readSeparator 0 readIpv4 (groupChars groups ++ text) else none) = none := by
    rw [readSeparator_of_no_dot hdot, ite_self]
  cases fuel with
  | zero =>
    obtain rfl := List.length_eq_zero_iff.mp (Nat.le_zero.mp hf)
    rfl
  | succ fuel =>
    rw [readGroups, hnone]
    cases groups with
    | nil => simp only [groupChars, List.nil_append, readSeparator, if_true, readNumber_none hs.head]
    | cons group groups =>
      simp only [List.mem_cons, forall_eq_or_imp] at hg
      simp only [groupChars, List.append_assoc, readSeparator, if_true,
        readNumber_toDigits hg.1 (moreGroups_head hs.head)]
      rw [readGroups_moreGroups (Nat.succ_ne_zero 0) hg.2 hs (Nat.le_of_succ_le_succ hf)]

theorem stops_nil : Stops [] := ⟨by simp, rfl, by simp⟩

theorem stops_colons {text : List Char} (h : '.' ∉ text) : Stops (':' :: ':' :: text) := by
  refine ⟨fun c hc => ?_, ?_, by simp [h]⟩
  · obtain rfl : ':' = c := by simpa using hc
    decide
  · have hcolon : ∀ c, (':' :: text).head? = some c → (digitValue 16 c).isSome = false := by
      rintro c hc
      obtain rfl : ':' = c := by simpa using hc
      decide
    simp [readChar, readNumber_none hcolon]

/-! ## The zeros left out -/

theorem longestZeros_map (groups : List Nat) :
    longestZeros (groups.map fun group => if group = 0 then 0 else 1) = longestZeros groups := by
  unfold longestZeros
  extract_lets step
  rw [List.foldl_map]
  congr 2
  funext state group
  by_cases h : group = 0
  · simp [h]
  · simp [h, step]

/-- The run that is left out lies within the eight groups, and all its groups are zero. -/
theorem longestZeros_zero {groups : List Nat} (h : groups.length = 8) :
    (longestZeros groups).1 + (longestZeros groups).2 ≤ 8 ∧
      ∀ group ∈ (groups.drop (longestZeros groups).1).take (longestZeros groups).2, group = 0 := by
  have all : ∀ b0 b1 b2 b3 b4 b5 b6 b7 : Bool,
      let zeros := [b0, b1, b2, b3, b4, b5, b6, b7].map fun b => if b then 0 else 1
      (longestZeros zeros).1 + (longestZeros zeros).2 ≤ 8 ∧
        ∀ group ∈ (zeros.drop (longestZeros zeros).1).take (longestZeros zeros).2, group = 0 := by
    decide +kernel
  obtain ⟨g0, g1, g2, g3, g4, g5, g6, g7, rfl⟩ : ∃ g0 g1 g2 g3 g4 g5 g6 g7,
      groups = [g0, g1, g2, g3, g4, g5, g6, g7] := by
    match groups, h with
    | [g0, g1, g2, g3, g4, g5, g6, g7], _ => exact ⟨_, _, _, _, _, _, _, _, rfl⟩
  have hzeros := all (g0 = 0) (g1 = 0) (g2 = 0) (g3 = 0) (g4 = 0) (g5 = 0) (g6 = 0) (g7 = 0)
  have hmap : [decide (g0 = 0), decide (g1 = 0), decide (g2 = 0), decide (g3 = 0), decide (g4 = 0),
      decide (g5 = 0), decide (g6 = 0), decide (g7 = 0)].map (fun b => if b then 0 else 1) =
      [g0, g1, g2, g3, g4, g5, g6, g7].map fun group => if group = 0 then 0 else 1 := by
    simp
  dsimp only at hzeros
  rw [hmap, longestZeros_map] at hzeros
  refine ⟨hzeros.1, fun group hm => ?_⟩
  have := hzeros.2 (if group = 0 then 0 else 1) (by
    rw [← List.map_drop, ← List.map_take]
    exact List.mem_map_of_mem hm)
  by_contra hne
  simp [hne] at this

/-! ## Addresses -/

theorem segments_length (address : Ipv6Addr) : (segments address).length = 8 := rfl

theorem segments_lt (address : Ipv6Addr) : ∀ group ∈ segments address, group < 65536 := by
  intro group hm
  obtain ⟨i, -, rfl⟩ := List.mem_map.mp hm
  omega

theorem groupsToV6_segments (address : Ipv6Addr) : groupsToV6 (segments address) = address := by
  have hlt := address.isLt
  apply BitVec.eq_of_toNat_eq
  have hlist : segments address = [
      address.toNat / 65536 ^ 7 % 65536, address.toNat / 65536 ^ 6 % 65536,
      address.toNat / 65536 ^ 5 % 65536, address.toNat / 65536 ^ 4 % 65536,
      address.toNat / 65536 ^ 3 % 65536, address.toNat / 65536 ^ 2 % 65536,
      address.toNat / 65536 ^ 1 % 65536, address.toNat / 65536 ^ 0 % 65536] := rfl
  rw [hlist, groupsToV6, BitVec.toNat_ofNat]
  simp only [List.foldl_cons, List.foldl_nil]
  omega

/-- The groups around the zeros left out, with the zeros in their place. -/
theorem groups_around_zeros {groups : List Nat} (h : groups.length = 8) :
    groups.take (longestZeros groups).1 ++
        List.replicate (longestZeros groups).2 0 ++
        groups.drop ((longestZeros groups).1 + (longestZeros groups).2) = groups := by
  obtain ⟨hle, hzero⟩ := longestZeros_zero h
  have hrun : List.replicate (longestZeros groups).2 0 =
      (groups.drop (longestZeros groups).1).take (longestZeros groups).2 := by
    refine (List.eq_replicate_iff.mpr ⟨?_, hzero⟩).symm
    simp only [List.length_take, List.length_drop, h]
    omega
  rw [hrun, ← List.drop_drop, List.append_assoc, List.take_append_drop, List.take_append_drop]

theorem readIpv6_full {groups : List Nat} (h : groups.length = 8)
    (hg : ∀ group ∈ groups, group < 65536) :
    readIpv6 (groupChars groups) = some (groupsToV6 groups, []) := by
  have hread := @readGroups_groupChars 8 8 groups [] hg stops_nil (by omega)
  rw [List.append_nil] at hread
  simp [readIpv6, hread, h]

theorem readIpv6_compressed {groups : List Nat} (h : groups.length = 8)
    (hg : ∀ group ∈ groups, group < 65536) (hlong : (longestZeros groups).2 > 1) :
    readIpv6 (groupChars (groups.take (longestZeros groups).1) ++ ':' :: ':' ::
        groupChars (groups.drop ((longestZeros groups).1 + (longestZeros groups).2))) =
      some (groupsToV6 groups, []) := by
  obtain ⟨hle, -⟩ := longestZeros_zero h
  have haround := groups_around_zeros h
  generalize (longestZeros groups).1 = start, (longestZeros groups).2 = length at *
  have hfront : (groups.take start).length = start := by rw [List.length_take]; omega
  have hback : (groups.drop (start + length)).length = 8 - start - length := by
    rw [List.length_drop]; omega
  have hhead := @readGroups_groupChars 8 8 (groups.take start)
    (':' :: ':' :: groupChars (groups.drop (start + length)))
    (fun g hm => hg g (List.mem_of_mem_take hm)) (stops_colons (dot_not_mem_groupChars _)) (by omega)
  have htail := @readGroups_groupChars (8 - (start + 1)) (8 - (start + 1))
    (groups.drop (start + length)) [] (fun g hm => hg g (List.mem_of_mem_drop hm)) stops_nil
    (by omega)
  rw [List.append_nil] at htail
  have hzeros : 8 - start - (8 - start - length) = length := by omega
  rw [readIpv6, hhead]
  simp only [hfront, show start ≠ 8 by omega, if_false, Bool.false_eq_true, readChar, if_true,
    Option.bind_eq_bind, Option.bind_some, htail, hback, hzeros, haround]
  rfl

theorem readIpv4_displayIpv4 (address : Ipv4Addr) :
    readIpv4 (displayIpv4 address).toList = some (address, []) := by
  have hlt := address.isLt
  have hdotted : IsDotted (displayIpv4 address).toList (address.toNat / 16777216)
      (address.toNat / 65536 % 256) (address.toNat / 256 % 256) (address.toNat % 256) :=
    isDotted_display (by omega) (by omega) (by omega) (by omega)
  have hread := readIpv4Octets_eq_some.mpr
    ⟨_, (List.append_nil (displayIpv4 address).toList).symm, hdotted, by simp⟩
  have hvalue : octetsToV4 (address.toNat / 16777216) (address.toNat / 65536 % 256)
      (address.toNat / 256 % 256) (address.toNat % 256) = address := by
    apply BitVec.eq_of_toNat_eq
    rw [octetsToV4, BitVec.toNat_ofNat]
    omega
  rw [readIpv4, hread, Option.map_some, hvalue]

/-- The text of an IPv4-mapped address. -/
theorem readIpv6_mapped {address : Ipv6Addr} (h : (address >>> 32 == 0xffff) = true) :
    readIpv6 ("::ffff:".toList ++ (displayIpv4 (address.setWidth 32)).toList) =
      some (address, []) := by
  have hv4 := readIpv4_displayIpv4 (address.setWidth 32)
  generalize (displayIpv4 (address.setWidth 32)).toList = dotted at *
  have htext : "::ffff:".toList ++ dotted =
      [':', ':'] ++ ('f' :: 'f' :: 'f' :: 'f' :: ':' :: dotted) := by
    rw [String.toList_ofList]
    rfl
  have hhead : readGroups 8 0 8 ([':', ':'] ++ ('f' :: 'f' :: 'f' :: 'f' :: ':' :: dotted)) =
      ([], false, [':', ':'] ++ ('f' :: 'f' :: 'f' :: 'f' :: ':' :: dotted)) := rfl
  have hffff : readNumber 16 4 65536 true ('f' :: 'f' :: 'f' :: 'f' :: ':' :: dotted) =
      some (0xffff, ':' :: dotted) :=
    @readNumber_toDigits 0xffff (':' :: dotted) (by decide) (by simp; decide)
  have hf : readIpv4 ('f' :: 'f' :: 'f' :: 'f' :: ':' :: dotted) = none := rfl
  have htail : readGroups 7 0 7 ('f' :: 'f' :: 'f' :: 'f' :: ':' :: dotted) =
      ([0xffff, (address.setWidth 32).toNat / 65536, (address.setWidth 32).toNat % 65536], true,
        []) := by
    rw [readGroups]
    simp only [readSeparator, if_true, hf, ite_self, hffff]
    rw [readGroups]
    simp [readSeparator, readChar, hv4]
  have hvalue : groupsToV6 [0, 0, 0, 0, 0, 0xffff, (address.setWidth 32).toNat / 65536,
      (address.setWidth 32).toNat % 65536] = address := by
    have hhigh := congrArg BitVec.toNat (beq_iff_eq.mp h)
    have hlt := address.isLt
    apply BitVec.eq_of_toNat_eq
    have hffff : (0xffff : Ipv6Addr).toNat = 65535 := rfl
    rw [BitVec.toNat_ushiftRight, Nat.shiftRight_eq_div_pow, hffff] at hhigh
    simp only [groupsToV6, BitVec.toNat_ofNat, BitVec.toNat_setWidth, List.foldl_cons,
      List.foldl_nil] at hhigh ⊢
    omega
  rw [htext, readIpv6, hhead]
  simp only [List.length_nil, List.cons_append, List.nil_append, readChar, if_true,
    Option.bind_eq_bind, Option.bind_some, Nat.reduceAdd, Nat.reduceSub, htail]
  exact congrArg (fun a => some (a, [])) hvalue

/-! ## The colon -/

theorem readSeparator_of_no_colon {α : Type} {index : Nat} {text : List Char}
    {inner : List Char → Option (α × List Char)} (hi : index ≠ 0) (h : ':' ∉ text) :
    readSeparator index inner text = none := by
  rw [readSeparator, if_neg hi]
  cases hc : readChar ':' text with
  | none => rfl
  | some rest =>
    obtain rfl := readChar_eq_some.mp hc
    simp at h

theorem readGroups_of_no_colon {limit index fuel : Nat} {text : List Char} (hi : index ≠ 0)
    (h : ':' ∉ text) : readGroups limit index fuel text = ([], false, text) := by
  cases fuel with
  | zero => rfl
  | succ fuel =>
    rw [readGroups, readSeparator_of_no_colon hi h, ite_self]
    simp only [readSeparator_of_no_colon hi h]

theorem readIpv6_of_no_colon {text : List Char} (h : ':' ∉ text) : readIpv6 text = none := by
  have hrest : ∀ {rest used : List Char}, text = used ++ rest → ':' ∉ rest :=
    fun ht hm => h (ht ▸ List.mem_append_right _ hm)
  have hchar : ∀ {rest used : List Char}, text = used ++ rest → readChar ':' rest = none := by
    intro rest used ht
    cases hc : readChar ':' rest with
    | none => rfl
    | some tail =>
      have := hrest ht
      rw [readChar_eq_some.mp hc] at this
      simp at this
  rw [readIpv6, readGroups]
  simp only [readSeparator, if_true, Nat.reduceAdd, Nat.reduceLT]
  cases hv4 : readIpv4 text with
  | some read => rfl
  | none =>
    cases hg : readNumber 16 4 65536 true text with
    | none => simp [@hchar text [] rfl]
    | some read =>
      obtain ⟨used, ht, -⟩ := readNumber_takes hg
      simp [readGroups_of_no_colon one_ne_zero (hrest ht), hchar ht]

end Ipv6Text

open Ipv6Text

theorem colon_mem_iff {text : String} {address : IpAddr} (h : parseIp text = some address) :
    ':' ∈ text.toList ↔ address.isIpv4 = false := by
  cases address with
  | v4 ip =>
    obtain ⟨a, b, c, d, hd, -⟩ := parseIpv4_eq_some.mp (parseIp_eq_v4.mp h)
    simp [IpAddr.isIpv4, hd.not_mem (x := ':') (by decide) (by decide)]
  | v6 ip =>
    simp only [IpAddr.isIpv4, iff_true]
    by_contra hn
    rw [parseIp, readIpv6_of_no_colon hn] at h
    cases hv4 : readIpv4 text.toList with
    | none => simp [hv4, parseAll] at h
    | some read =>
      rw [hv4] at h
      unfold parseAll at h
      split at h
      next hr =>
        simp only [Option.some.injEq] at hr h
        subst h
        simp at hr
      · cases h

theorem readIpv6_displayIpv6 (address : Ipv6Addr) :
    readIpv6 (displayIpv6 address).toList = some (address, []) := by
  have hlen := segments_length address
  have hlt := segments_lt address
  unfold displayIpv6
  split
  next hmapped =>
    rw [String.toList_append]
    exact readIpv6_mapped hmapped
  · dsimp only
    split
    next hlong =>
      rw [String.toList_append, String.toList_append, toList_displayGroups, toList_displayGroups,
        List.append_assoc]
      exact (readIpv6_compressed hlen hlt hlong).trans (by rw [groupsToV6_segments])
    · rw [toList_displayGroups, readIpv6_full hlen hlt, groupsToV6_segments]

theorem parseIpv6_displayIpv6 (address : Ipv6Addr) :
    parseIpv6 (displayIpv6 address) = some address := by
  rw [parseIpv6, readIpv6_displayIpv6]
  rfl

/-- No text of an IPv6 address begins with an IPv4 address. -/
theorem readIpv4_displayIpv6 (address : Ipv6Addr) :
    readIpv4 (displayIpv6 address).toList = none := by
  unfold displayIpv6
  split
  · rw [String.toList_append, String.toList_ofList]
    rfl
  · dsimp only
    apply readIpv4_of_no_dot
    split
    · simp [toList_displayGroups, dot_not_mem_groupChars]
    · simp [toList_displayGroups, dot_not_mem_groupChars]

theorem parseIp_displayIpv6 (address : Ipv6Addr) :
    parseIp (displayIpv6 address) = some (.v6 address) := by
  rw [parseIp, readIpv4_displayIpv6, readIpv6_displayIpv6]
  rfl

end Rust
