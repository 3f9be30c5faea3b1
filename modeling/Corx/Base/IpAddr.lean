import Mathlib.Data.Bool.AllAny
import Corx.Base.Text

/-!
# IP addresses and networks

`IpAddr` follows Rust's `std::net::IpAddr`: an IPv4 address is 32 bits, an IPv6 address 128.
`IpAddr.parse` is its `FromStr`, a recursive-descent reader of the dotted and the
colon-separated forms; a literal is accepted only when the whole text is read. `IpNet` is a
CIDR network, and membership in it is agreement on the prefix within one address family.
-/

/-- An IPv4 or IPv6 address. -/
inductive IpAddr
  | v4 (addr : BitVec 32)
  | v6 (addr : BitVec 128)
  deriving DecidableEq, Repr

namespace IpAddr

/-- `IpAddr::is_ipv6`. -/
def isIpv6 : IpAddr → Bool
  | v4 _ => false
  | v6 _ => true

/-- `IpAddr::to_canonical`: an IPv4-mapped IPv6 address (`::ffff:a.b.c.d`) becomes the IPv4
address it maps, every other address stays. -/
def toCanonical : IpAddr → IpAddr
  | v4 a => v4 a
  | v6 a => if a >>> 32 = 0xffff#128 then v4 (a.setWidth 32) else v6 a

/-- The canonical form is canonical. -/
@[simp]
theorem toCanonical_toCanonical (a : IpAddr) : a.toCanonical.toCanonical = a.toCanonical := by
  cases a with
  | v4 a => rfl
  | v6 a =>
    by_cases h : a >>> 32 = 0xffff#128
    · simp [toCanonical, h]
    · simp [toCanonical, h]

/-- `Ipv4Addr::to_ipv6_mapped`: the IPv6 form of an IPv4 address (`::ffff:a.b.c.d`), as a
dual-stack listener reports it. -/
def toIpv6Mapped (a : BitVec 32) : IpAddr :=
  v6 (0xffff#96 ++ a)

/-- The canonical form of a mapped address is the address it maps. -/
@[simp]
theorem toCanonical_toIpv6Mapped (a : BitVec 32) : (toIpv6Mapped a).toCanonical = v4 a := by
  have hvalue : (0xffff#96 ++ a : BitVec 128).toNat = 0xffff * 2 ^ 32 + a.toNat := by
    rw [BitVec.toNat_append, ← Nat.shiftLeft_add_eq_or_of_lt a.isLt, Nat.shiftLeft_eq]
    rfl
  have hprefix : (0xffff#96 ++ a : BitVec 128) >>> 32 = 0xffff#128 := by
    apply BitVec.eq_of_toNat_eq
    have := a.isLt
    rw [BitVec.toNat_ushiftRight, hvalue, Nat.shiftRight_eq_div_pow]
    simp
    omega
  simp only [toIpv6Mapped, toCanonical, if_pos hprefix, BitVec.setWidth_append_eq_right]

/-! ## Reading address literals -/

/-- `char::to_digit`. -/
def toDigit (radix : ℕ) (c : Char) : Option ℕ :=
  let d :=
    if '0' ≤ c ∧ c ≤ '9' then c.toNat - '0'.toNat
    else if 'a' ≤ c ∧ c ≤ 'z' then c.toNat - 'a'.toNat + 10
    else if 'A' ≤ c ∧ c ≤ 'Z' then c.toNat - 'A'.toNat + 10
    else radix
  if d < radix then some d else none

/-- `Parser::read_number`: a run of digits, at most `maxDigits` of them, with a leading zero
only where it is allowed and a value below `bound`. -/
def readNumber (radix maxDigits bound : ℕ) (allowZeroPrefix : Bool) (p : Str) :
    Option (ℕ × Str) :=
  let digits := p.takeWhile fun c => (toDigit radix c).isSome
  let value := digits.foldl (fun acc c => acc * radix + (toDigit radix c).getD 0) 0
  if maxDigits < digits.length || digits.isEmpty then none
  -- a lone zero is a number; `01` is not, where leading zeros are not allowed
  else if !allowZeroPrefix && digits.head? == some '0' && 1 < digits.length then none
  else if value < bound then some (value, p.drop digits.length)
  else none

/-- `Parser::read_separator`: from the second group on, a separator comes first. -/
def readSeparator {α : Type} (sep : Char) (index : ℕ) (inner : Str → Option (α × Str))
    (p : Str) : Option (α × Str) :=
  if index = 0 then inner p
  else match p with
    | c :: rest => if c = sep then inner rest else none
    | [] => none

/-- The groups `i`, `i + 1`, … of a dotted quad, `n` of them. -/
def readOctets : ℕ → ℕ → Str → Option (List ℕ × Str)
  | 0, _, p => some ([], p)
  | n + 1, i, p => do
    let (octet, rest) ← readSeparator '.' i (readNumber 10 3 256 false) p
    let (octets, rest) ← readOctets n (i + 1) rest
    return (octet :: octets, rest)

/-- `Parser::read_ipv4_addr`. -/
def readIpv4Addr (p : Str) : Option (ℕ × Str) := do
  let (octets, rest) ← readOctets 4 0 p
  return (octets.foldl (fun acc o => acc * 256 + o) 0, rest)

/-- `read_groups`: colon-separated groups of an IPv6 address, `n` of them still to fill,
the next one at position `i`; a trailing dotted quad fills the last two. -/
def readGroups : ℕ → ℕ → Str → List ℕ × Bool × Str
  | 0, _, p => ([], false, p)
  | n + 1, i, p =>
    -- a dotted quad needs the room of two groups
    match if 1 ≤ n then readSeparator ':' i readIpv4Addr p else none with
    | some (quad, rest) => ([quad / 65536, quad % 65536], true, rest)
    | none =>
      match readSeparator ':' i (readNumber 16 4 65536 true) p with
      | some (group, rest) =>
        let (groups, ipv4, rest) := readGroups n (i + 1) rest
        (group :: groups, ipv4, rest)
      | none => ([], false, p)

/-- The 128 bits of eight groups. -/
def ofGroups (groups : List ℕ) : BitVec 128 :=
  BitVec.ofNat 128 (groups.foldl (fun acc g => acc * 65536 + g) 0)

/-- `Parser::read_ipv6_addr`: eight groups, or fewer around one `::`. -/
def readIpv6Addr (p : Str) : Option (BitVec 128 × Str) :=
  let (head, headIpv4, p) := readGroups 8 0 p
  if head.length = 8 then some (ofGroups head, p)
  else if headIpv4 then none
  else match p with
    | ':' :: ':' :: p =>
      -- `::` stands for at least one group
      let (tail, _, p) := readGroups (8 - (head.length + 1)) 0 p
      some (ofGroups (head ++ List.replicate (8 - head.length - tail.length) 0 ++ tail), p)
    | _ => none

/-- `str::parse::<IpAddr>`: an IPv4 literal or else an IPv6 literal, with nothing after it. -/
def parse (s : Str) : Option IpAddr :=
  match readIpv4Addr s with
  | some (a, rest) => if rest.isEmpty then some (v4 (BitVec.ofNat 32 a)) else none
  | none =>
    match readIpv6Addr s with
    | some (a, rest) => if rest.isEmpty then some (v6 a) else none
    | none => none

/-! ## Printing addresses -/

/-- The `Display` form of an IPv4 address: a dotted quad. -/
def displayV4 (a : BitVec 32) : Str :=
  Str.join ['.'] ([24, 16, 8, 0].map fun shift => Str.ofNat ((a >>> shift).toNat % 256))

/-- The eight 16-bit groups of an IPv6 address. -/
def segments (a : BitVec 128) : List ℕ :=
  [112, 96, 80, 64, 48, 32, 16, 0].map fun shift => (a >>> shift).toNat % 65536

/-- The start and length of the first longest run of zero groups; `current` is the run that
ends before position `i`. -/
def longestZeroRun : List ℕ → ℕ → ℕ × ℕ → ℕ × ℕ → ℕ × ℕ
  | [], _, _, longest => longest
  | segment :: rest, i, current, longest =>
    if segment = 0 then
      let current := (if current.2 = 0 then i else current.1, current.2 + 1)
      longestZeroRun rest (i + 1) current (if longest.2 < current.2 then current else longest)
    else longestZeroRun rest (i + 1) (0, 0) longest

/-- Groups in hexadecimal, separated by colons. -/
def displayGroups (groups : List ℕ) : Str :=
  Str.join [':'] (groups.map (Nat.toDigits 16))

/-- `Display` for an IPv6 address: a mapped IPv4 address in dotted form, else hexadecimal
groups with the longest run of at least two zeros elided. -/
def displayV6 (a : BitVec 128) : Str :=
  if a >>> 32 = 0xffff#128 then "::ffff:".toList ++ displayV4 (a.setWidth 32)
  else
    let (start, len) := longestZeroRun (segments a) 0 (0, 0) (0, 0)
    if 1 < len then
      displayGroups ((segments a).take start) ++ "::".toList ++
        displayGroups ((segments a).drop (start + len))
    else displayGroups (segments a)

/-- `Display` for an address. -/
def display : IpAddr → Str
  | v4 a => displayV4 a
  | v6 a => displayV6 a

/-- The characters that addresses are printed in. -/
def displayChars : List Char :=
  "0123456789abcdef.:".toList

/-- A number in a base up to 16 is printed in the characters of addresses. -/
theorem mem_displayChars_of_mem_toDigits {b n : ℕ} (hb : 1 < b) (hle : b ≤ 16) {c : Char}
    (hc : c ∈ Nat.toDigits b n) : c ∈ displayChars := by
  have hdigit : ∀ d < 16, Nat.digitChar d ∈ displayChars := by decide
  induction n using Nat.strong_induction_on with
  | _ n ih =>
    rw [Nat.toDigits_eq_if hb] at hc
    split at hc
    next hlt =>
      obtain rfl := List.mem_singleton.mp hc
      exact hdigit n (by omega)
    next hle' =>
      rcases List.mem_append.mp hc with hc | hc
      · exact ih _ (Nat.div_lt_self (by omega) hb) hc
      · obtain rfl := List.mem_singleton.mp hc
        exact hdigit _ (lt_of_lt_of_le (Nat.mod_lt n (by omega)) hle)

/-- An IPv4 address is printed in digits and dots. -/
theorem isDigit_of_mem_displayV4 {a : BitVec 32} :
    ∀ c ∈ displayV4 a, c.isDigit = true ∨ c = '.' := by
  refine Str.forall_mem_join (by simp) fun part hpart c hc => ?_
  obtain ⟨shift, -, rfl⟩ := List.mem_map.mp hpart
  exact Or.inl (Str.isDigit_of_mem_ofNat hc)

/-- An IPv4 address is printed in the characters of addresses. -/
theorem mem_displayChars_of_displayV4 {a : BitVec 32} : ∀ c ∈ displayV4 a, c ∈ displayChars := by
  refine Str.forall_mem_join (List.all_iff_forall_prop.mp (by decide)) fun part hpart c hc => ?_
  obtain ⟨shift, -, rfl⟩ := List.mem_map.mp hpart
  exact mem_displayChars_of_mem_toDigits (by decide) (by decide) hc

/-- Groups of an IPv6 address are printed in the characters of addresses. -/
theorem mem_displayChars_of_displayGroups {groups : List ℕ} :
    ∀ c ∈ displayGroups groups, c ∈ displayChars := by
  refine Str.forall_mem_join (List.all_iff_forall_prop.mp (by decide)) fun part hpart c hc => ?_
  obtain ⟨group, -, rfl⟩ := List.mem_map.mp hpart
  exact mem_displayChars_of_mem_toDigits (by decide) (by decide) hc

/-- An IPv6 address is printed in the characters of addresses. -/
theorem mem_displayChars_of_displayV6 {a : BitVec 128} :
    ∀ c ∈ displayV6 a, c ∈ displayChars := by
  intro c hc
  unfold displayV6 at hc
  split at hc
  · rcases List.mem_append.mp hc with hc | hc
    · exact List.all_iff_forall_prop.mp (by decide : "::ffff:".toList.all (· ∈ displayChars)) c hc
    · exact mem_displayChars_of_displayV4 c hc
  · dsimp only at hc
    split at hc
    · rcases List.mem_append.mp hc with hc | hc
      · rcases List.mem_append.mp hc with hc | hc
        · exact mem_displayChars_of_displayGroups c hc
        · exact List.all_iff_forall_prop.mp (by decide : "::".toList.all (· ∈ displayChars)) c hc
      · exact mem_displayChars_of_displayGroups c hc
    · exact mem_displayChars_of_displayGroups c hc

/-- No address is printed as the empty text. -/
theorem display_ne_nil (ip : IpAddr) : ip.display ≠ [] := by
  have hjoin : ∀ (sep first second : Str) (parts : List Str), sep ≠ [] →
      Str.join sep (first :: second :: parts) ≠ [] := by
    intro sep first second parts hsep
    simp [Str.join, List.intercalate, hsep]
  cases ip with
  | v4 a => exact hjoin ['.'] _ _ _ (List.cons_ne_nil '.' [])
  | v6 a =>
    rw [display, displayV6]
    split
    · simp
    · dsimp only
      split
      · simp
      -- nothing is elided, so all the eight groups are printed
      · exact hjoin [':'] _ _ _ (List.cons_ne_nil ':' [])

/-- An address is printed in the characters of addresses. -/
theorem mem_displayChars_of_display {ip : IpAddr} : ∀ c ∈ ip.display, c ∈ displayChars := by
  cases ip with
  | v4 a => exact mem_displayChars_of_displayV4
  | v6 a => exact mem_displayChars_of_displayV6

end IpAddr

/-- A CIDR network. -/
inductive IpNet
  | v4 (addr : BitVec 32) (prefixLen : Fin 33)
  | v6 (addr : BitVec 128) (prefixLen : Fin 129)
  deriving DecidableEq, Repr

namespace IpNet

/-- `IpNet::contains`: the same family and the same prefix. -/
def contains : IpNet → IpAddr → Bool
  | v4 net len, .v4 a => net >>> (32 - len.val) = a >>> (32 - len.val)
  | v6 net len, .v6 a => net >>> (128 - len.val) = a >>> (128 - len.val)
  | _, _ => false

/-- `str::parse::<IpNet>`: an address, a slash and a prefix length. -/
def parse (s : Str) : Option IpNet := do
  let (addr, len) ← Str.splitOnce "/" s
  let (len, rest) ← IpAddr.readNumber 10 3 129 false len
  guard rest.isEmpty
  match ← IpAddr.parse addr with
  | .v4 a => if h : len < 33 then some (v4 a ⟨len, h⟩) else none
  | .v6 a => if h : len < 129 then some (v6 a ⟨len, h⟩) else none

end IpNet
