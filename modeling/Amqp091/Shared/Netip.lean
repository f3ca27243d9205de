import Amqp091.Shared.Decimal

/-! # IP addresses

Which texts Go's `net/netip` takes for an address. What number it stands for does not
matter to those who keep the text. -/

namespace Netip

open ByteCodec
open Decimal (isDigit)

inductive Family where
  | v4
  | v6
  deriving DecidableEq, Repr

def isHexDigit (c : UInt8) : Bool :=
  isDigit c || ('a'.toUInt8 ≤ c && c ≤ 'f'.toUInt8) || ('A'.toUInt8 ≤ c && c ≤ 'F'.toUInt8)

/-- The loop of `parseIPv4Fields`, with the value of the octet it is in, the number of
octets before it and the number of its digits. -/
def fieldsLoop (val pos digLen : ℕ) : Bytes → Bool
  | [] => !(pos < 3)
  | c :: s =>
      if isDigit c then
        if digLen = 1 ∧ val = 0 then false
        else if val * 10 + (c.toNat - '0'.toNat) > 255 then false
        else fieldsLoop (val * 10 + (c.toNat - '0'.toNat)) pos (digLen + 1) s
      else if c = '.'.toUInt8 then
        -- an octet without digits, at either end or between two dots
        if digLen = 0 ∨ s = [] then false
        else if pos = 3 then false
        else fieldsLoop 0 (pos + 1) 0 s
      else false

def parseIPv4Fields (s : Bytes) : Bool := fieldsLoop 0 0 0 s

/-- Zeros are left out exactly where fewer than eight groups are written. -/
def endsWell (groups : ℕ) (ellipsis : Bool) : Bool := if 0 < groups then ellipsis else !ellipsis

/-- The loop of `parseIPv6`, with the number of groups that are missing and whether the two
colons that stand for zeros have been seen. -/
def groupsLoop : ℕ → Bool → Bytes → Bool
  | 0, ellipsis, s => s = [] && endsWell 0 ellipsis
  | groups + 1, ellipsis, s =>
      let digits := s.takeWhile isHexDigit
      if digits = [] ∨ digits.length > 4 then false
      else
        match s.dropWhile isHexDigit with
        | [] => endsWell groups ellipsis
        | c :: rest =>
            if c = '.'.toUInt8 then
              -- an IPv4 address in place of the last two groups
              (ellipsis || groups + 1 = 2) && 2 ≤ groups + 1 && parseIPv4Fields s &&
                endsWell (groups + 1 - 2) ellipsis
            else if c ≠ ':'.toUInt8 then false
            else
              match rest with
              | [] => false
              | d :: more =>
                  if d = ':'.toUInt8 then
                    if ellipsis then false
                    else if more = [] then endsWell groups true
                    else groupsLoop groups true more
                  else groupsLoop groups ellipsis (d :: more)

/-- The groups of an address, which may begin with the two colons. -/
def parseGroups (s : Bytes) : Bool :=
  match s with
  | c :: d :: rest =>
      if c = ':'.toUInt8 ∧ d = ':'.toUInt8 then rest = [] || groupsLoop 8 true rest
      else groupsLoop 8 false s
  | s => groupsLoop 8 false s

/-- A zone is what follows the first percent sign. -/
def parseIPv6 (s : Bytes) : Bool :=
  let address := s.takeWhile (· ≠ '%'.toUInt8)
  s.drop address.length ≠ ['%'.toUInt8] && parseGroups address

/-- The first of its separators tells what a text must be. -/
def parseAddr (s : Bytes) : Option Family :=
  match s.find? fun c => c = '.'.toUInt8 || c = ':'.toUInt8 || c = '%'.toUInt8 with
  | none => none
  | some c =>
      if c = '.'.toUInt8 then if parseIPv4Fields s then some .v4 else none
      else if c = ':'.toUInt8 then if parseIPv6 s then some .v6 else none
      else none

theorem colon_mem_of_parseAddr {s : Bytes} (h : parseAddr s = some .v6) : ':'.toUInt8 ∈ s := by
  rw [parseAddr] at h
  split at h
  · cases h
  · rename_i c hfind
    split at h
    · split at h <;> cases h
    · split at h
      · rename_i hcolon
        exact hcolon ▸ List.mem_of_find?_eq_some hfind
      · cases h

-- a zone, zeros left out, an IPv4 address at the end; then a group, a zone or zeros missing
example : (["fe80::1%en0", "1:2:3:4:5:6:7:8", "::ffff:1.2.3.4"].map fun s =>
      parseAddr (s.toList.map Char.toUInt8)) = List.replicate 3 (some .v6) ∧
    (["a:", "::1%", "1:2:3:4:5:6:7::8"].map fun s =>
      parseAddr (s.toList.map Char.toUInt8)) = List.replicate 3 none := by
  decide +kernel

end Netip
