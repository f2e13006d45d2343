import Fwos.Rust.Text

/-!
# Rust's IP addresses

`Ipv4Addr`, `Ipv6Addr` and `IpAddr` as the bits they stand for, with the
parsers and the `Display` texts of Rust's `std::net`.
-/

namespace Rust

abbrev Ipv4Addr := BitVec 32
abbrev Ipv6Addr := BitVec 128

inductive IpAddr where
  | v4 (address : Ipv4Addr)
  | v6 (address : Ipv6Addr)
deriving DecidableEq, Repr

namespace IpAddr

def isIpv4 : IpAddr → Bool
  | .v4 _ => true
  | .v6 _ => false

def isUnspecified : IpAddr → Bool
  | .v4 address => address == 0
  | .v6 address => address == 0

def isMulticast : IpAddr → Bool
  | .v4 address => address >>> 28 == 0xe
  | .v6 address => address >>> 120 == 0xff

end IpAddr

/-- `Ipv6Addr::is_unicast_link_local`: fe80::/10. -/
def isUnicastLinkLocal (address : Ipv6Addr) : Bool := address >>> 118 == 0x3fa

/-- The mask of a prefix length, zero for length zero, as the sources write it. -/
def prefixMask (width length : Nat) : BitVec width :=
  if length = 0 then 0 else BitVec.allOnes width <<< (width - length)

def octetsToV4 (a b c d : Nat) : Ipv4Addr :=
  BitVec.ofNat 32 (((a * 256 + b) * 256 + c) * 256 + d)

/-! ## Parsing

The readers take the characters still to be read and return the value read with
the rest, as the `Parser` of Rust's `std::net` does. -/

def digitValue (radix : Nat) (c : Char) : Option Nat :=
  let value :=
    if c.isDigit then c.toNat - '0'.toNat
    else if 'a'.toNat ≤ c.toNat ∧ c.toNat ≤ 'f'.toNat then c.toNat - 'a'.toNat + 10
    else if 'A'.toNat ≤ c.toNat ∧ c.toNat ≤ 'F'.toNat then c.toNat - 'A'.toNat + 10
    else radix
  if value < radix then some value else none

/-- `read_number` with a maximal number of digits: the longest run of digits, at
least one and at most `maxDigits`. -/
def readNumber (radix maxDigits limit : Nat) (allowZeroPrefix : Bool) (text : List Char) :
    Option (Nat × List Char) :=
  let digits := text.takeWhile fun c => (digitValue radix c).isSome
  let value := digits.foldl (fun value c => value * radix + (digitValue radix c).getD 0) 0
  if digits.isEmpty || digits.length > maxDigits then none
  else if !allowZeroPrefix && digits.head? == some '0' && digits.length > 1 then none
  else if value < limit then some (value, text.drop digits.length) else none

/-- `read_given_char`. -/
def readChar (c : Char) : List Char → Option (List Char)
  | x :: rest => if x = c then some rest else none
  | [] => none

def readOctet (text : List Char) : Option (Nat × List Char) := readNumber 10 3 256 false text

/-- `read_ipv4_addr`: four octets with dots between them. -/
def readIpv4Octets (text : List Char) : Option ((Nat × Nat × Nat × Nat) × List Char) := do
  let (a, text) ← readOctet text
  let text ← readChar '.' text
  let (b, text) ← readOctet text
  let text ← readChar '.' text
  let (c, text) ← readOctet text
  let text ← readChar '.' text
  let (d, text) ← readOctet text
  return ((a, b, c, d), text)

def readIpv4 (text : List Char) : Option (Ipv4Addr × List Char) :=
  (readIpv4Octets text).map fun read =>
    (octetsToV4 read.1.1 read.1.2.1 read.1.2.2.1 read.1.2.2.2, read.2)

/-- `read_separator`: a colon before every group but the first. -/
def readSeparator {α : Type} (index : Nat) (inner : List Char → Option (α × List Char))
    (text : List Char) : Option (α × List Char) :=
  if index = 0 then inner text else (readChar ':' text).bind inner

/-- `read_groups`: up to `limit` groups, the last two of which may be an IPv4
address. Returns the groups, whether they end in an IPv4 address, and the rest. -/
def readGroups (limit index : Nat) : Nat → List Char → List Nat × Bool × List Char
  | 0, text => ([], false, text)
  | fuel + 1, text =>
      match if index + 1 < limit then readSeparator index readIpv4 text else none with
      | some (v4, rest) => ([v4.toNat / 65536, v4.toNat % 65536], true, rest)
      | none =>
          match readSeparator index (readNumber 16 4 65536 true) text with
          | some (group, rest) =>
              let read := readGroups limit (index + 1) fuel rest
              (group :: read.1, read.2)
          | none => ([], false, text)

def groupsToV6 (groups : List Nat) : Ipv6Addr :=
  BitVec.ofNat 128 (groups.foldl (fun value group => value * 65536 + group) 0)

/-- `read_ipv6_addr`: eight groups, or fewer with one `::` for the zeros left out. -/
def readIpv6 (text : List Char) : Option (Ipv6Addr × List Char) :=
  let head := readGroups 8 0 8 text
  if head.1.length = 8 then some (groupsToV6 head.1, head.2.2)
  else if head.2.1 then none
  else do
    let text ← readChar ':' head.2.2
    let text ← readChar ':' text
    let limit := 8 - (head.1.length + 1)
    let tail := readGroups limit 0 limit text
    let zeros := List.replicate (8 - head.1.length - tail.1.length) 0
    return (groupsToV6 (head.1 ++ zeros ++ tail.1), tail.2.2)

/-- A value read from the whole text. -/
def parseAll {α : Type} (read : Option (α × List Char)) : Option α :=
  match read with
  | some (value, []) => some value
  | _ => none

/-- `Ipv4Addr::from_str`. -/
def parseIpv4 (text : String) : Option Ipv4Addr :=
  if text.toList.length > 15 then none else parseAll (readIpv4 text.toList)

/-- `Ipv6Addr::from_str`. -/
def parseIpv6 (text : String) : Option Ipv6Addr := parseAll (readIpv6 text.toList)

/-- `IpAddr::from_str`: an IPv4 address if the text begins with one, else IPv6. -/
def parseIp (text : String) : Option IpAddr :=
  parseAll <|
    match readIpv4 text.toList with
    | some (address, rest) => some (.v4 address, rest)
    | none => (readIpv6 text.toList).map fun read => (.v6 read.1, read.2)

/-! ## Display -/

def octets (address : Ipv4Addr) : Nat × Nat × Nat × Nat :=
  (address.toNat / 16777216, address.toNat / 65536 % 256, address.toNat / 256 % 256,
    address.toNat % 256)

def displayIpv4 (address : Ipv4Addr) : String :=
  let (a, b, c, d) := octets address
  s!"{a}.{b}.{c}.{d}"

/-- The eight groups of sixteen bits. -/
def segments (address : Ipv6Addr) : List Nat :=
  (List.range 8).map fun i => address.toNat / 65536 ^ (7 - i) % 65536

def hex (value : Nat) : String := String.ofList (Nat.toDigits 16 value)

/-- The first longest run of zero groups: where it starts and how long it is. -/
def longestZeros (groups : List Nat) : Nat × Nat :=
  let step := fun (best, current, index) group =>
    let current : Nat × Nat := if group = 0 then
      (if current.2 = 0 then index else current.1, current.2 + 1) else (0, 0)
    (if current.2 > (best : Nat × Nat).2 then current else best, current, index + 1)
  (groups.foldl step ((0, 0), (0, 0), 0)).1

def displayGroups (groups : List Nat) : String := ":".intercalate (groups.map hex)

/-- `Display` of `Ipv6Addr`: IPv4-mapped addresses with their IPv4 part, else the
groups with the first longest run of at least two zero groups left out. -/
def displayIpv6 (address : Ipv6Addr) : String :=
  if address >>> 32 == 0xffff then "::ffff:" ++ displayIpv4 (address.setWidth 32)
  else
    let groups := segments address
    let (start, length) := longestZeros groups
    if length > 1 then
      displayGroups (groups.take start) ++ "::" ++ displayGroups (groups.drop (start + length))
    else displayGroups groups

/-! ## What the IPv4 parser accepts -/

/-- The digits of an octet: at most three, no leading zero, below 256. -/
structure IsOctet (digits : List Char) (value : Nat) : Prop where
  nonempty : digits ≠ []
  length : digits.length ≤ 3
  digit : ∀ c ∈ digits, c.isDigit = true
  noLeadingZero : digits.head? = some '0' → digits.length = 1
  value_eq : decimal digits = value
  lt : value < 256

theorem isDigit_iff {c : Char} : c.isDigit = true ↔ 48 ≤ c.toNat ∧ c.toNat ≤ 57 := by
  simp only [Char.isDigit, Bool.and_eq_true, decide_eq_true_eq]
  exact Iff.rfl

theorem digitValue_ten {c : Char} :
    digitValue 10 c = if c.isDigit then some (c.toNat - '0'.toNat) else none := by
  unfold digitValue
  by_cases h : c.isDigit = true
  · have hc : c.toNat - '0'.toNat < 10 := by
      have := isDigit_iff.mp h
      have h0 : '0'.toNat = 48 := rfl
      omega
    simp only [h, if_true, hc]
  · have hf : c.isDigit = false := by simpa using h
    simp only [hf, Bool.false_eq_true, if_false]
    rw [if_neg]
    split_ifs <;> omega

theorem digitValue_isSome {c : Char} : (digitValue 10 c).isSome = c.isDigit := by
  rw [digitValue_ten]
  split <;> simp_all

theorem foldl_digitValue {digits : List Char} (h : ∀ c ∈ digits, c.isDigit = true) (start : Nat) :
    digits.foldl (fun value c => value * 10 + (digitValue 10 c).getD 0) start =
      digits.foldl (fun value c => value * 10 + (c.toNat - '0'.toNat)) start := by
  induction digits generalizing start with
  | nil => rfl
  | cons c digits ih =>
    simp only [List.mem_cons, forall_eq_or_imp] at h
    simp only [List.foldl_cons, digitValue_ten, h.1, if_true, Option.getD_some]
    simpa only [digitValue_ten] using ih h.2 _

theorem takeWhile_append_digits {digits rest : List Char} (h : ∀ c ∈ digits, c.isDigit = true)
    (hr : ∀ c, rest.head? = some c → c.isDigit = false) :
    (digits ++ rest).takeWhile Char.isDigit = digits := by
  rw [List.takeWhile_append_of_pos h]
  cases rest with
  | nil => simp
  | cons c rest => simp [hr c rfl]

theorem drop_takeWhile (p : Char → Bool) (text : List Char) :
    text.drop (text.takeWhile p).length = text.dropWhile p := by
  have h : ((text.takeWhile p) ++ (text.dropWhile p)).drop (text.takeWhile p).length =
      text.dropWhile p := List.drop_left
  rwa [List.takeWhile_append_dropWhile] at h

theorem readOctet_eq_some {text rest : List Char} {value : Nat} :
    readOctet text = some (value, rest) ↔
      ∃ digits, text = digits ++ rest ∧ IsOctet digits value ∧
        ∀ c, rest.head? = some c → c.isDigit = false := by
  constructor
  · intro h
    simp only [readOctet, readNumber, digitValue_isSome] at h
    have hall : ∀ c ∈ text.takeWhile Char.isDigit, c.isDigit = true := by
      intro c hc
      have := List.all_takeWhile (p := Char.isDigit) (l := text)
      exact List.all_eq_true.mp this c hc
    rw [foldl_digitValue hall, drop_takeWhile] at h
    split at h
    · cases h
    next h1 =>
    split at h
    · cases h
    next h2 =>
    split at h
    next h3 =>
      simp only [Option.some.injEq, Prod.mk.injEq] at h
      obtain ⟨rfl, rfl⟩ := h
      simp only [Bool.or_eq_true, not_or, List.isEmpty_iff, decide_eq_true_eq] at h1
      refine ⟨text.takeWhile Char.isDigit, List.takeWhile_append_dropWhile.symm,
        ⟨h1.1, Nat.le_of_not_lt h1.2, hall, ?_, rfl, h3⟩, ?_⟩
      · intro h0
        have hpos : 0 < (text.takeWhile Char.isDigit).length := List.length_pos_of_ne_nil h1.1
        have hle : (text.takeWhile Char.isDigit).length ≤ 1 := by simpa [h0] using h2
        omega
      · intro c hc
        exact List.head?_dropWhile_not Char.isDigit text |> fun h => by simp [hc] at h; exact h
    · cases h
  · rintro ⟨digits, rfl, ho, hr⟩
    simp only [readOctet, readNumber, digitValue_isSome, takeWhile_append_digits ho.digit hr,
      foldl_digitValue ho.digit]
    have hv : digits.foldl (fun value c => value * 10 + (c.toNat - '0'.toNat)) 0 = value :=
      ho.value_eq
    rw [hv, if_neg, if_neg, if_pos ho.lt]
    · simp
    · have := ho.noLeadingZero
      simp
      intro h; have := this h; omega
    · have := ho.nonempty
      have := ho.length
      simp [*]

theorem readChar_eq_some {c : Char} {text rest : List Char} :
    readChar c text = some rest ↔ text = c :: rest := by
  cases text with
  | nil => simp [readChar]
  | cons x text =>
    simp only [readChar, List.cons.injEq]
    split <;> simp_all

/-- The text of an IPv4 address: four octets with dots between them. -/
structure IsDotted (text : List Char) (a b c d : Nat) : Prop where
  octets : ∃ da db dc dd, IsOctet da a ∧ IsOctet db b ∧ IsOctet dc c ∧ IsOctet dd d ∧
    text = da ++ '.' :: (db ++ '.' :: (dc ++ '.' :: dd))

theorem dot_not_digit {rest : List Char} : ∀ c, ('.' :: rest).head? = some c → c.isDigit = false := by
  rintro c h
  obtain rfl : '.' = c := by simpa using h
  decide

theorem readIpv4Octets_eq_some {text rest : List Char} {a b c d : Nat} :
    readIpv4Octets text = some ((a, b, c, d), rest) ↔
      ∃ dotted, text = dotted ++ rest ∧ IsDotted dotted a b c d ∧
        ∀ c, rest.head? = some c → c.isDigit = false := by
  simp only [readIpv4Octets, Option.bind_eq_bind, Option.bind_eq_some_iff, Prod.exists,
    readOctet_eq_some, readChar_eq_some, Option.pure_def, Option.some.injEq, Prod.mk.injEq]
  constructor
  · rintro ⟨a, _, ⟨da, rfl, ha, -⟩, _, rfl, b, _, ⟨db, rfl, hb, -⟩, _, rfl, c, _, ⟨dc, rfl, hc, -⟩,
      _, rfl, d, _, ⟨dd, rfl, hd, hr⟩, ⟨rfl, rfl, rfl, rfl⟩, rfl⟩
    exact ⟨_, by simp, ⟨da, db, dc, dd, ha, hb, hc, hd, rfl⟩, hr⟩
  · rintro ⟨_, rfl, ⟨da, db, dc, dd, ha, hb, hc, hd, rfl⟩, hr⟩
    exact ⟨a, _, ⟨da, by simp, ha, dot_not_digit⟩, _, rfl, b, _, ⟨db, rfl, hb, dot_not_digit⟩, _, rfl,
      c, _, ⟨dc, rfl, hc, dot_not_digit⟩, _, rfl, d, _, ⟨dd, rfl, hd, hr⟩, ⟨rfl, rfl, rfl, rfl⟩, rfl⟩

theorem IsDotted.length_le {text : List Char} {a b c d : Nat} (h : IsDotted text a b c d) :
    text.length ≤ 15 := by
  obtain ⟨da, db, dc, dd, ha, hb, hc, hd, rfl⟩ := h.octets
  have := ha.length
  have := hb.length
  have := hc.length
  have := hd.length
  simp only [List.length_append, List.length_cons]
  omega

theorem parseIpv4_eq_some {text : String} {ip : Ipv4Addr} :
    parseIpv4 text = some ip ↔
      ∃ a b c d, IsDotted text.toList a b c d ∧ ip = octetsToV4 a b c d := by
  unfold parseIpv4 parseAll readIpv4
  constructor
  · intro h
    split at h
    · cases h
    split at h
    next value hv =>
      simp only [Option.map_eq_some_iff, Prod.mk.injEq, Prod.exists] at hv
      obtain ⟨a, b, c, d, _, hr, rfl, rfl⟩ := hv
      obtain ⟨dotted, ht, hd, -⟩ := readIpv4Octets_eq_some.mp hr
      rw [List.append_nil] at ht
      exact ⟨a, b, c, d, ht ▸ hd, (Option.some.inj h).symm⟩
    · cases h
  · rintro ⟨a, b, c, d, hd, rfl⟩
    have hr : readIpv4Octets text.toList = some ((a, b, c, d), []) :=
      readIpv4Octets_eq_some.mpr ⟨_, by simp, hd, by simp⟩
    rw [if_neg (by have := hd.length_le; omega), hr]
    rfl

/-- An IPv4 address is read before IPv6 is tried. -/
theorem parseIp_eq_v4 {text : String} {ip : Ipv4Addr} :
    parseIp text = some (.v4 ip) ↔ parseIpv4 text = some ip := by
  rw [parseIpv4_eq_some]
  unfold parseIp parseAll readIpv4
  constructor
  · intro h
    split at h
    next value hv =>
      cases hr : readIpv4Octets text.toList with
      | none => 
        simp [hr] at hv
        obtain ⟨x, y, hxy, rfl⟩ := hv
        cases h
      | some read =>
        obtain ⟨⟨a, b, c, d⟩, rest⟩ := read
        simp only [hr, Option.map_some, Option.some.injEq, Prod.mk.injEq] at hv
        obtain ⟨rfl, rfl⟩ := hv
        obtain ⟨dotted, ht, hd, -⟩ := readIpv4Octets_eq_some.mp hr
        rw [List.append_nil] at ht
        simp only [Option.some.injEq, IpAddr.v4.injEq] at h
        exact ⟨a, b, c, d, ht ▸ hd, h.symm⟩
    · cases h
  · rintro ⟨a, b, c, d, hd, rfl⟩
    have hr : readIpv4Octets text.toList = some ((a, b, c, d), []) :=
      readIpv4Octets_eq_some.mpr ⟨_, by simp, hd, by simp⟩
    rw [hr]
    rfl

/-- Every octet below 256 is printed as the digits of an octet. -/
theorem isOctet_toDigits {value : Nat} (h : value < 256) : IsOctet (Nat.toDigits 10 value) value := by
  have all : ∀ v < 256, Nat.toDigits 10 v ≠ [] ∧ (Nat.toDigits 10 v).length ≤ 3 ∧
      (Nat.toDigits 10 v).all Char.isDigit ∧
      ((Nat.toDigits 10 v).head? = some '0' → (Nat.toDigits 10 v).length = 1) ∧
      decimal (Nat.toDigits 10 v) = v := by decide +kernel
  obtain ⟨h1, h2, h3, h4, h5⟩ := all value h
  exact ⟨h1, h2, List.all_eq_true.mp h3, h4, h5, h⟩

theorem toList_toString (value : Nat) : (toString value).toList = Nat.toDigits 10 value := by
  simp [toString, Nat.repr]

theorem isDotted_display {a b c d : Nat} (ha : a < 256) (hb : b < 256) (hc : c < 256)
    (hd : d < 256) : IsDotted (s!"{a}.{b}.{c}.{d}").toList a b c d := by
  refine ⟨_, _, _, _, isOctet_toDigits ha, isOctet_toDigits hb, isOctet_toDigits hc,
    isOctet_toDigits hd, ?_⟩
  have hs := toList_toString
  simp only [toString] at hs
  simp [toString, hs]

/-! ## Numbers and networks -/

theorem IsOctet.parseU8 {digits : List Char} {value : Nat} (h : IsOctet digits value) :
    parseU8 (String.ofList digits) = some value :=
  parseUnsigned_of_digits (by simpa using h.nonempty) (by simpa using h.digit)
    (by simpa using h.value_eq) (by have := h.lt; omega)

theorem IsOctet.not_mem {digits : List Char} {value : Nat} (h : IsOctet digits value) {c : Char}
    (hc : c.isDigit = false) : c ∉ digits := fun hm => by
  have := h.digit c hm
  simp [hc] at this

theorem IsDotted.not_mem {text : List Char} {a b c d : Nat} (h : IsDotted text a b c d) {x : Char}
    (hx : x.isDigit = false) (hd : x ≠ '.') : x ∉ text := by
  obtain ⟨da, db, dc, dd, h1, h2, h3, h4, rfl⟩ := h.octets
  simp [h1.not_mem hx, h2.not_mem hx, h3.not_mem hx, h4.not_mem hx, hd]

theorem IsDotted.lt {text : List Char} {a b c d : Nat} (h : IsDotted text a b c d) :
    a < 256 ∧ b < 256 ∧ c < 256 ∧ d < 256 := by
  obtain ⟨da, db, dc, dd, h1, h2, h3, h4, -⟩ := h.octets
  exact ⟨h1.lt, h2.lt, h3.lt, h4.lt⟩

/-- The parts between the dots are the octets. -/
theorem IsDotted.split {text : String} {a b c d : Nat} (h : IsDotted text.toList a b c d) :
    (split text '.').filterMap Rust.parseU8 = [a, b, c, d] := by
  obtain ⟨da, db, dc, dd, h1, h2, h3, h4, ht⟩ := h.octets
  have hsep : ∀ {digits value}, IsOctet digits value → ∀ x ∈ digits, (x == '.') = false :=
    fun ho x hx => by
      rw [beq_eq_false_iff_ne]
      rintro rfl
      exact ho.not_mem (by decide) hx
  have hs : splitChars (· == '.') text.toList = [da, db, dc, dd] := by
    rw [ht, splitChars_append (hsep h1) (by simp), splitChars_append (hsep h2) (by simp),
      splitChars_append (hsep h3) (by simp), splitChars_of_not_mem (hsep h4)]
  simp [Rust.split, splitBy, hs, h1.parseU8, h2.parseU8, h3.parseU8, h4.parseU8]

/-- A network of at most 31 bits does not see the lowest bit. -/
theorem mask_lowest_bit {a b c d n : Nat} (hd : d % 2 = 0) (hn : n ≤ 31) :
    octetsToV4 a b c (d + 1) &&& prefixMask 32 n = octetsToV4 a b c d &&& prefixMask 32 n := by
  unfold prefixMask
  split
  · simp
  · refine BitVec.eq_of_getLsbD_eq fun i hi => ?_
    simp only [BitVec.getLsbD_and, BitVec.getLsbD_shiftLeft, octetsToV4, BitVec.getLsbD_ofNat]
    cases i with
    | zero =>
      have hlow : 0 < 32 - n := by omega
      simp [hlow]
    | succ i =>
      congr 2
      simp only [Nat.testBit_succ]
      congr 1
      omega

/-! ## The characters of addresses -/

/-- A character of an IP address text. -/
def isIpChar (c : Char) : Bool := (digitValue 16 c).isSome || c == ':' || c == '.'

/-- A reader that only takes characters of IP addresses. -/
def TakesIpChars {α : Type} (read : List Char → Option (α × List Char)) : Prop :=
  ∀ {text value rest}, read text = some (value, rest) →
    ∃ used, text = used ++ rest ∧ ∀ c ∈ used, isIpChar c = true

theorem isIpChar_of_isDigit {c : Char} (h : c.isDigit = true) : isIpChar c = true := by
  have hc := isDigit_iff.mp h
  have h0 : '0'.toNat = 48 := rfl
  have hd : digitValue 16 c = some (c.toNat - '0'.toNat) := by
    simp only [digitValue, h, if_true]
    rw [if_pos (by omega)]
  simp [isIpChar, hd]

theorem readIpv4_takes : TakesIpChars readIpv4 := by
  intro text value rest h
  simp only [readIpv4, Option.map_eq_some_iff, Prod.mk.injEq, Prod.exists] at h
  obtain ⟨a, b, c, d, rest, hr, -, rfl⟩ := h
  obtain ⟨dotted, ht, hd, -⟩ := readIpv4Octets_eq_some.mp hr
  refine ⟨dotted, ht, fun x hx => ?_⟩
  by_contra hn
  have hdot : x ≠ '.' := by
    rintro rfl
    exact hn (by decide)
  have hdig : x.isDigit = false := by
    cases hc : x.isDigit with
    | false => rfl
    | true => exact absurd (isIpChar_of_isDigit hc) hn
  exact hd.not_mem hdig hdot hx

theorem readNumber_takes {maxDigits limit : Nat} {zero : Bool} :
    TakesIpChars (readNumber 16 maxDigits limit zero) := by
  intro text value rest h
  simp only [readNumber, drop_takeWhile] at h
  split_ifs at h
  simp only [Option.some.injEq, Prod.mk.injEq] at h
  refine ⟨_, by rw [← h.2, List.takeWhile_append_dropWhile], fun c hc => ?_⟩
  have := List.all_eq_true.mp (List.all_takeWhile (p := fun c => (digitValue 16 c).isSome)) c hc
  simp [isIpChar, this]

theorem readChar_colon_takes {text rest : List Char} (h : readChar ':' text = some rest) :
    ∃ used, text = used ++ rest ∧ ∀ c ∈ used, isIpChar c = true :=
  ⟨[':'], readChar_eq_some.mp h, List.all_eq_true.mp rfl⟩

theorem readSeparator_takes {α : Type} {index : Nat} {inner : List Char → Option (α × List Char)}
    (hi : TakesIpChars inner) : TakesIpChars (readSeparator index inner) := by
  intro text value rest h
  unfold readSeparator at h
  split at h
  · exact hi h
  · obtain ⟨mid, hc, hv⟩ := Option.bind_eq_some_iff.mp h
    obtain ⟨first, rfl, h1⟩ := readChar_colon_takes hc
    obtain ⟨second, rfl, h2⟩ := hi hv
    refine ⟨first ++ second, by simp, fun c hc => ?_⟩
    rcases List.mem_append.mp hc with hc | hc
    · exact h1 c hc
    · exact h2 c hc

theorem readGroups_takes (limit index fuel : Nat) (text : List Char) :
    ∃ used, text = used ++ (readGroups limit index fuel text).2.2 ∧
      ∀ c ∈ used, isIpChar c = true := by
  induction fuel generalizing index text with
  | zero => exact ⟨[], rfl, by simp⟩
  | succ fuel ih =>
    unfold readGroups
    split
    next v4 rest h =>
      split at h
      · exact readSeparator_takes readIpv4_takes h
      · cases h
    · split
      next group rest h =>
        obtain ⟨first, rfl, h1⟩ := readSeparator_takes readNumber_takes h
        obtain ⟨second, hs, h2⟩ := ih (index + 1) rest
        refine ⟨first ++ second, by simpa using hs, fun c hc => ?_⟩
        rcases List.mem_append.mp hc with hc | hc
        · exact h1 c hc
        · exact h2 c hc
      · exact ⟨[], rfl, by simp⟩

theorem readIpv6_takes : TakesIpChars readIpv6 := by
  intro text value rest h
  obtain ⟨head, ht, hh⟩ := readGroups_takes 8 0 8 text
  unfold readIpv6 at h
  dsimp only at h
  split at h
  · simp only [Option.some.injEq, Prod.mk.injEq] at h
    exact ⟨head, by rwa [← h.2], hh⟩
  · split at h
    · cases h
    · simp only [Option.bind_eq_bind, Option.bind_eq_some_iff, Option.pure_def, Option.some.injEq,
        Prod.mk.injEq] at h
      obtain ⟨t1, h1, t2, h2, -, hrest⟩ := h
      obtain ⟨u1, e1, g1⟩ := readChar_colon_takes h1
      obtain ⟨u2, e2, g2⟩ := readChar_colon_takes h2
      obtain ⟨u3, e3, g3⟩ := readGroups_takes _ 0 _ t2
      rw [hrest] at e3
      refine ⟨head ++ u1 ++ u2 ++ u3, by rw [ht, e1, e2, e3]; simp, fun c hc => ?_⟩
      simp only [List.mem_append] at hc
      rcases hc with ((hc | hc) | hc) | hc
      exacts [hh c hc, g1 c hc, g2 c hc, g3 c hc]

theorem parseIpv6_chars {text : String} {address : Ipv6Addr} (h : parseIpv6 text = some address) :
    ∀ c ∈ text.toList, isIpChar c = true := by
  unfold parseIpv6 parseAll at h
  split at h
  next value hr =>
    obtain ⟨used, ht, hu⟩ := readIpv6_takes hr
    rw [ht, List.append_nil]
    exact hu
  · cases h

theorem parseIpv4_chars {text : String} {address : Ipv4Addr} (h : parseIpv4 text = some address) :
    ∀ c ∈ text.toList, isIpChar c = true := by
  unfold parseIpv4 at h
  split at h
  · cases h
  · unfold parseAll at h
    split at h
    next value hr =>
      obtain ⟨used, ht, hu⟩ := readIpv4_takes hr
      rw [ht, List.append_nil]
      exact hu
    · cases h

example : parseIp "192.168.1.1" = some (.v4 0xc0a80101) := by decide
example : parseIp "fe80::1" = some (.v6 0xfe800000000000000000000000000001) := by decide +kernel
example : displayIpv6 0xfd530001000100000000000000000001 = "fd53:1:1::1" := by decide +kernel

end Rust
