import Mathlib.Data.BitVec
import Mathlib.Data.List.Basic
import Sqlery.Network.Text

/-!
# Addresses and networks

The addresses of `ipaddress`, their text, and the networks they lie in.  An
IPv6 address of the form `::ffff:a.b.c.d` is a way to write an IPv4 address.
-/

namespace Sqlery.Network

/-- `IPv4Address` and `IPv6Address`, the latter with its zone. -/
inductive IpAddress where
  | v4 (ip : BitVec 32)
  | v6 (ip : BitVec 128) (scope : Option Text)
  deriving DecidableEq, Repr

/-- `IPv4Network` and `IPv6Network`. -/
inductive IpNetwork where
  | v4 (address : BitVec 32) (bits : Nat)
  | v6 (address : BitVec 128) (bits : Nat)
  deriving DecidableEq, Repr

def netmask (width bits : Nat) : BitVec width :=
  BitVec.allOnes width <<< (width - bits)

/-- `ip in net`. -/
def IpNetwork.contains : IpNetwork → IpAddress → Bool
  | .v4 address bits, .v4 ip => ip &&& netmask 32 bits = address
  | .v6 address bits, .v6 ip _ => ip &&& netmask 128 bits = address
  | .v4 _ _, .v6 _ _ => false
  | .v6 _ _, .v4 _ => false

/-- `ipv4_mapped`. -/
def ipv4Mapped (ip : BitVec 128) : Option (BitVec 32) :=
  if ip >>> 32 ≠ 0xffff then none else some (ip.setWidth 32)

/-- The address that a connection to this one goes to. -/
def IpAddress.unmapped : IpAddress → IpAddress
  | .v4 ip => .v4 ip
  | .v6 ip scope =>
      match ipv4Mapped ip with
      | some mapped => .v4 mapped
      | none => .v6 ip scope

def ofOctets (a b c d : Nat) : BitVec 32 :=
  BitVec.ofNat 32 (((a * 256 + b) * 256 + c) * 256 + d)

/-! ## Text to address -/

/-- `IPv4Address._parse_octet`. -/
def parseOctet (text : Text) : Option Nat :=
  if text = [] || !text.all Char.isDigit || 3 < text.length then none
  else if text ≠ ['0'] && text.head? = some '0' then none
  else
    let value := Nat.ofDigitChars 10 text 0
    if 255 < value then none else some value

/-- `IPv4Address(text)`. -/
def parseIpv4 (text : Text) : Option (BitVec 32) :=
  if '/' ∈ text then none
  else match (split '.' text).mapM parseOctet with
    | some [a, b, c, d] => some (ofOctets a b c d)
    | _ => none

def hexValue (c : Char) : Option Nat :=
  if c.isDigit then some (c.toNat - 48)
  else if 'a' ≤ c && c ≤ 'f' then some (c.toNat - 87)
  else if 'A' ≤ c && c ≤ 'F' then some (c.toNat - 55)
  else none

/-- `IPv6Address._parse_hextet`. -/
def parseHextet (text : Text) : Option Nat :=
  if text = [] || 4 < text.length then none
  else (text.mapM hexValue).map fun values =>
    values.foldl (fun value digit => 16 * value + digit) 0

def hex (value : Nat) : Text := Nat.toDigits 16 value

/-- The parts between the colons, with a dotted end as two hextets. -/
def ipv6Parts (text : Text) : Option (List Text) :=
  let parts := split ':' text
  if parts.length < 3 then none
  else
    let last := parts.getLastD []
    if '.' ∈ last then
      (parseIpv4 last).map fun ip => parts.dropLast ++
        [hex (ip.toNat / 65536), hex (ip.toNat % 65536)]
    else some parts

/-- The parts on one side of `::`; an empty one at the end of the text stands
only for the other colon. -/
def besideSkip (outer : Option Text) (parts : List Text) :
    Option (List Nat) :=
  if outer = some [] then if parts.length = 1 then some [] else none
  else parts.mapM parseHextet

/-- The hextets of an address, with zeros for `::`. -/
def ipv6Hextets (parts : List Text) : Option (List Nat) :=
  let skips := ((List.range (parts.length - 2)).map (· + 1)).filter fun index =>
    parts.getD index ['0'] = []
  if 9 < parts.length then none
  else match skips with
    | [] => if parts.length = 8 then parts.mapM parseHextet else none
    | [skip] => do
        let high ← besideSkip parts.head? (parts.take skip)
        let low ← besideSkip parts.getLast? (parts.drop (skip + 1))
        let given := high.length + low.length
        if given < 8 then
          some (high ++ List.replicate (8 - given) 0 ++ low)
        else none
    | _ => none

/-- `IPv6Address(text)`. -/
def parseIpv6 (text : Text) : Option IpAddress :=
  let (address, zoned, scope) := partition '%' text
  if '/' ∈ text then none
  else if zoned && (scope = [] || '%' ∈ scope) then none
  else do
    let parts ← ipv6Parts address
    let hextets ← ipv6Hextets parts
    let ip := hextets.foldl (fun value hextet => 65536 * value + hextet) 0
    some (.v6 (BitVec.ofNat 128 ip) (if zoned then some scope else none))

/-- `ip_address(text)`. -/
def ipAddress (text : Text) : Option IpAddress :=
  match parseIpv4 text with
  | some ip => some (.v4 ip)
  | none => parseIpv6 text

/-! ## Address to text -/

/-- `str(IPv4Address)`. -/
def ipv4Text (ip : BitVec 32) : Text :=
  joined '.' ([24, 16, 8, 0].map fun shift =>
    Nat.toDigits 10 (ip.toNat / 2 ^ shift % 256))

/-- The first of the longest runs of zeros: where it starts and how long it
is. -/
def longestRun : List Text → Nat → Nat × Nat → Nat × Nat → Nat × Nat
  | [], _, best, _ => best
  | hextet :: rest, index, best, current =>
      if hextet = ['0'] then
        let current :=
          (if current.2 = 0 then index else current.1, current.2 + 1)
        longestRun rest (index + 1)
          (if best.2 < current.2 then current else best) current
      else longestRun rest (index + 1) best (0, 0)

/-- `_compress_hextets`. -/
def compressHextets (hextets : List Text) : List Text :=
  let (start, length) := longestRun hextets 0 (0, 0) (0, 0)
  if 1 < length then
    let extended :=
      if start + length = hextets.length then hextets ++ [[]] else hextets
    let compressed :=
      extended.take start ++ [[]] ++ extended.drop (start + length)
    if start = 0 then [] :: compressed else compressed
  else hextets

/-- `_string_from_ip_int`. -/
def hextetsText (ip : Nat) : Text :=
  joined ':' (compressHextets ((List.range 8).map fun index =>
    hex (ip / 2 ^ (112 - 16 * index) % 65536)))

/-- `str(ip)`. -/
def IpAddress.text : IpAddress → Text
  | .v4 ip => ipv4Text ip
  | .v6 ip scope =>
      let address :=
        match ipv4Mapped ip with
        | some mapped => hextetsText (ip >>> 32).toNat ++ ':' :: ipv4Text mapped
        | none => hextetsText ip.toNat
      match scope with
      | some zone => address ++ '%' :: zone
      | none => address

/-! ## The characters of an address -/

/-- The characters of an address without its zone. -/
def isAddressChar (c : Char) : Bool :=
  c.isDigit || ('a' ≤ c && c ≤ 'f') || c = ':' || c = '.'

section Characters

variable {c : Char} {hextets : List Text} {text scope : Text}

theorem isAddressChar_digits {base value : Nat} (positive : 1 < base)
    (small : base ≤ 16) (member : c ∈ Nat.toDigits base value) :
    isAddressChar c = true := by
  have digit : ∀ value < 16, isAddressChar value.digitChar = true := by
    decide
  induction value using Nat.strongRecOn with
  | ind value ih =>
      rw [Nat.toDigits_eq_if positive] at member
      split at member
      · rename_i less
        rw [List.mem_singleton] at member
        rw [member]
        exact digit value (by omega)
      · rename_i more
        rcases List.mem_append.mp member with early | last
        · exact ih (value / base) (Nat.div_lt_self (by omega) positive) early
        · rw [List.mem_singleton] at last
          rw [last]
          have less : value % base < base := Nat.mod_lt _ (by omega)
          exact digit (value % base) (by omega)

theorem isAddressChar_ipv4Text {ip : BitVec 32} (member : c ∈ ipv4Text ip) :
    isAddressChar c = true ∧ c ≠ ':' := by
  rcases mem_joined member with rfl | ⟨part, listed, inPart⟩
  · decide
  · obtain ⟨shift, _, rfl⟩ := List.mem_map.mp listed
    refine ⟨isAddressChar_digits (by decide) (by decide) inPart, ?_⟩
    intro isColon
    have digit := Nat.isDigit_of_mem_toDigits (by decide) (by decide) inPart
    rw [isColon] at digit
    exact absurd digit (by decide)

theorem mem_compressHextets {part : Text}
    (member : part ∈ compressHextets hextets) :
    part = [] ∨ part ∈ hextets := by
  unfold compressHextets at member
  dsimp only at member
  have extends_ : ∀ {start length : Nat},
      part ∈ (if start + length = hextets.length then hextets ++ [[]]
        else hextets) → part = [] ∨ part ∈ hextets := by
    intro start length listed
    split at listed
    · rcases List.mem_append.mp listed with inside | added
      · exact Or.inr inside
      · exact Or.inl (List.mem_singleton.mp added)
    · exact Or.inr listed
  split at member
  · split at member
    · rcases List.mem_cons.mp member with first | later
      · exact Or.inl first
      · rcases List.mem_append.mp later with early | late
        · rcases List.mem_append.mp early with taken | gap
          · exact extends_ (List.mem_of_mem_take taken)
          · exact Or.inl (List.mem_singleton.mp gap)
        · exact extends_ (List.mem_of_mem_drop late)
    · rcases List.mem_append.mp member with early | late
      · rcases List.mem_append.mp early with taken | gap
        · exact extends_ (List.mem_of_mem_take taken)
        · exact Or.inl (List.mem_singleton.mp gap)
      · exact extends_ (List.mem_of_mem_drop late)
  · exact Or.inr member

theorem two_le_compressHextets (several : 2 ≤ hextets.length) :
    2 ≤ (compressHextets hextets).length := by
  unfold compressHextets
  dsimp only
  split
  · split
    · simp only [List.length_cons, List.length_append]
      omega
    · rename_i later
      have positive : 0 < (longestRun hextets 0 (0, 0) (0, 0)).1 := by omega
      simp only [List.length_append, List.length_cons, List.length_nil,
        List.length_take]
      split
      · simp only [List.length_append, List.length_cons, List.length_nil]
        omega
      · omega
  · exact several

theorem isAddressChar_hextetsText {ip : Nat} (member : c ∈ hextetsText ip) :
    isAddressChar c = true := by
  rcases mem_joined member with rfl | ⟨part, listed, inPart⟩
  · decide
  · rcases mem_compressHextets listed with rfl | isHextet
    · cases inPart
    · obtain ⟨index, _, rfl⟩ := List.mem_map.mp isHextet
      exact isAddressChar_digits (by decide) (by decide) inPart

theorem colon_mem_hextetsText (ip : Nat) : ':' ∈ hextetsText ip := by
  apply sep_mem_joined
  apply two_le_compressHextets
  rw [List.length_map, List.length_range]
  decide

/-- The text of an address: its own characters, then its zone. -/
theorem text_v6 (ip : BitVec 128) (scope : Option Text) : ∃ address,
    (IpAddress.v6 ip scope).text =
      address ++ (match scope with
        | some zone => '%' :: zone
        | none => []) ∧
    (∀ c ∈ address, isAddressChar c = true) ∧ ':' ∈ address := by
  have isAddress : ∃ address : Text, address =
      (match ipv4Mapped ip with
        | some mapped => hextetsText (ip >>> 32).toNat ++ ':' :: ipv4Text mapped
        | none => hextetsText ip.toNat) ∧
      (∀ c ∈ address, isAddressChar c = true) ∧ ':' ∈ address := by
    cases ipv4Mapped ip with
    | none =>
        exact ⟨_, rfl, fun c member => isAddressChar_hextetsText member,
          colon_mem_hextetsText _⟩
    | some mapped =>
        refine ⟨_, rfl, ?_, List.mem_append_right _ List.mem_cons_self⟩
        intro c member
        rcases List.mem_append.mp member with early | late
        · exact isAddressChar_hextetsText early
        · rcases List.mem_cons.mp late with rfl | late
          · decide
          · exact (isAddressChar_ipv4Text late).1
  obtain ⟨address, isEq, characters, colon⟩ := isAddress
  refine ⟨address, ?_, characters, colon⟩
  cases scope with
  | none =>
      rw [List.append_nil, isEq]
      rfl
  | some zone =>
      rw [isEq]
      rfl

theorem split_absent {sep : Char} (fresh : sep ∉ text) :
    split sep text = [text] := by
  induction text with
  | nil => rfl
  | cons first rest ih =>
      have different : first ≠ sep := fun same =>
        fresh (same ▸ List.mem_cons_self)
      rw [split, if_neg different, ih fun member =>
        fresh (List.mem_cons_of_mem _ member)]

theorem colon_of_parseIpv6 {ip : IpAddress}
    (parsed : parseIpv6 text = some ip) :
    ':' ∈ text := by
  by_contra noColon
  have address : ':' ∉ (partition '%' text).1 := fun member =>
    noColon (mem_partition_fst member)
  have noParts : ipv6Parts (partition '%' text).1 = none := by
    unfold ipv6Parts
    rw [split_absent address]
    rfl
  unfold parseIpv6 at parsed
  simp [noParts] at parsed

theorem parseIpv6_of_ipAddress {ip : BitVec 128} {zone : Option Text}
    (parsed : ipAddress text = some (.v6 ip zone)) :
    parseIpv6 text = some (.v6 ip zone) := by
  unfold ipAddress at parsed
  split at parsed
  · cases parsed
  · exact parsed

/-- The zone of an address is the end of its text. -/
theorem scope_of_ipAddress {ip : BitVec 128}
    (parsed : ipAddress text = some (.v6 ip (some scope))) :
    ∃ address, text = address ++ '%' :: scope := by
  have isV6 := parseIpv6_of_ipAddress parsed
  unfold parseIpv6 at isV6
  rcases partition_cases '%' text with ⟨_, isEq⟩
    | ⟨address, zone, isText, _, isEq⟩
  · rw [isEq] at isV6
    simp [Option.bind_eq_some_iff] at isV6
  · rw [isEq] at isV6
    simp only [Bool.true_and, if_true] at isV6
    split at isV6
    · cases isV6
    · split at isV6
      · cases isV6
      · simp only [Option.bind_eq_bind, Option.bind_eq_some_iff,
          Option.some.injEq, IpAddress.v6.injEq] at isV6
        obtain ⟨_, _, _, _, _, rfl⟩ := isV6
        exact ⟨address, isText⟩

end Characters

example : (ipAddress "::ffff:127.0.0.1".toList).map IpAddress.unmapped =
    some (.v4 (ofOctets 127 0 0 1)) := by
  decide

example : (ipAddress "2001:DB8:0:0:1::%eth0".toList).map IpAddress.text =
    some "2001:db8:0:0:1::%eth0".toList := by
  decide +kernel

end Sqlery.Network
