import Mathlib.Data.List.Basic
/-!
# IP addresses

Go's `net.IP` as 128 bits, an IPv4 address in its mapped form, with the classes of
package `net`, the prefixes of `net/netip`, and `net.ParseIP`.
-/

namespace IPAddresses

structure IP where
  bits : BitVec 128
  deriving DecidableEq

/-- `To4`: the address of a mapped one, `::ffff:0:0/96`. -/
def IP.to4 (ip : IP) : Option (BitVec 32) :=
  if ip.bits.extractLsb' 32 96 = 0xffff then some (ip.bits.extractLsb' 0 32) else none

/-- Byte `i` of an IPv4 address. -/
def byte4 (ip : BitVec 32) (i : Nat) : Nat := (ip.extractLsb' (8 * (3 - i)) 8).toNat

/-- Byte `i` of an IPv6 address. -/
def byte16 (ip : IP) (i : Nat) : Nat := (ip.bits.extractLsb' (8 * (15 - i)) 8).toNat

def ofBytes4 (a b c d : Nat) : IP :=
  ⟨BitVec.ofNat 128 (0xffff * 0x100000000 + a * 0x1000000 + b * 0x10000 + c * 0x100 + d)⟩

/-- From eight groups of 16 bits. -/
def ofGroups (groups : List Nat) : IP :=
  ⟨BitVec.ofNat 128 (groups.foldl (fun n group => n * 0x10000 + group) 0)⟩

namespace IP

def isUnspecified (ip : IP) : Bool :=
  match ip.to4 with
  | some ip4 => ip4 = 0
  | none => ip.bits = 0

def isLoopback (ip : IP) : Bool :=
  match ip.to4 with
  | some ip4 => byte4 ip4 0 = 127
  | none => ip.bits = 1

def isPrivate (ip : IP) : Bool :=
  match ip.to4 with
  | some ip4 =>
    byte4 ip4 0 = 10 || (byte4 ip4 0 = 172 && byte4 ip4 1 / 16 = 1) ||
      (byte4 ip4 0 = 192 && byte4 ip4 1 = 168)
  | none => byte16 ip 0 / 2 = 0xfc / 2

def isMulticast (ip : IP) : Bool :=
  match ip.to4 with
  | some ip4 => byte4 ip4 0 / 16 = 0xe
  | none => byte16 ip 0 = 0xff

def isLinkLocalMulticast (ip : IP) : Bool :=
  match ip.to4 with
  | some ip4 => byte4 ip4 0 = 224 && byte4 ip4 1 = 0 && byte4 ip4 2 = 0
  | none => byte16 ip 0 = 0xff && byte16 ip 1 % 16 = 2

def isLinkLocalUnicast (ip : IP) : Bool :=
  match ip.to4 with
  | some ip4 => byte4 ip4 0 = 169 && byte4 ip4 1 = 254
  | none => byte16 ip 0 = 0xfe && byte16 ip 1 / 64 = 2

end IP

/-! ## Prefixes -/

/-- `netip.Addr`. -/
inductive Addr where
  | v4 (bits : BitVec 32)
  | v6 (bits : BitVec 128)

/-- `netip.Prefix`: an address and a number of leading bits. -/
structure Prefix where
  addr : Addr
  bits : Nat

/-- `Contains`: the leading bits of an address of the same family. -/
def Prefix.contains (p : Prefix) : Addr → Bool
  | .v4 ip =>
    match p.addr with
    | .v4 addr => (addr ^^^ ip) >>> (32 - p.bits) = 0
    | .v6 _ => false
  | .v6 ip =>
    match p.addr with
    | .v4 _ => false
    | .v6 addr => (addr ^^^ ip) >>> (128 - p.bits) = 0

/-! ## `net.ParseIP` -/

def digit (c : Char) : Option Nat := if '0' ≤ c ∧ c ≤ '9' then some (c.toNat - 48) else none

def hexDigit (c : Char) : Option Nat :=
  if '0' ≤ c ∧ c ≤ '9' then some (c.toNat - 48)
  else if 'a' ≤ c ∧ c ≤ 'f' then some (c.toNat - 87)
  else if 'A' ≤ c ∧ c ≤ 'F' then some (c.toNat - 55)
  else none

/-- A number in the given base, of at least one and at most `maxDigits` digits. -/
def number (base maxDigits : Nat) (digitOf : Char → Option Nat) (cs : List Char) : Option Nat :=
  if cs = [] ∨ maxDigits < cs.length then none
  else (cs.mapM digitOf).map fun digits => digits.foldl (fun n d => n * base + d) 0

/-- A field of a dotted address: at most 255, without leading zeros. -/
def field4 (cs : List Char) : Option Nat :=
  if 1 < cs.length ∧ cs.head? = some '0' then none else (number 10 3 digit cs).filter (· ≤ 255)

def parse4 (cs : List Char) : Option (List Nat) :=
  let fields := cs.splitOn '.'
  if fields.length = 4 then fields.mapM field4 else none

/-- The groups of a part without `::`; the last one may be a dotted address. -/
def parseGroups (last : Bool) : List (List Char) → Option (List Nat)
  | [] => some []
  | [cs] =>
    if last ∧ '.' ∈ cs then (parse4 cs).map fun fields =>
      [fields.getD 0 0 * 256 + fields.getD 1 0, fields.getD 2 0 * 256 + fields.getD 3 0]
    else (number 16 4 hexDigit cs).map ([·])
  | cs :: rest => (number 16 4 hexDigit cs).bind fun group => (parseGroups last rest).map (group :: ·)

def parsePart (last : Bool) (cs : List Char) : Option (List Nat) :=
  if cs = [] then some [] else parseGroups last (cs.splitOn ':')

/-- The text before and after the first `::`. -/
def splitEllipsis : List Char → Option (List Char × List Char)
  | ':' :: ':' :: rest => some ([], rest)
  | c :: rest => (splitEllipsis rest).map fun (left, right) => (c :: left, right)
  | [] => none

def parse6 (cs : List Char) : Option IP :=
  match splitEllipsis cs with
  | none => ((parseGroups true (cs.splitOn ':')).filter (·.length = 8)).map ofGroups
  | some (left, right) =>
    (parsePart false left).bind fun first => (parsePart true right).bind fun last =>
      if first.length + last.length ≤ 7 then
        some (ofGroups (first ++ List.replicate (8 - first.length - last.length) 0 ++ last))
      else none

/-- `net.ParseIP`: a dot or a colon, whichever comes first, tells the two forms apart. -/
def parseIP (s : String) : Option IP :=
  match s.toList.find? fun c => c = '.' || c = ':' || c = '%' with
  | some '.' =>
    (parse4 s.toList).map fun fields => ofBytes4 (fields.getD 0 0) (fields.getD 1 0)
      (fields.getD 2 0) (fields.getD 3 0)
  | some ':' => parse6 s.toList
  | _ => none

example : parseIP "127.0.0.1" = some (ofBytes4 127 0 0 1) ∧
    parseIP "::ffff:10.0.0.1" = parseIP "10.0.0.1" ∧
    (parseIP "fe80::1").map IP.isLinkLocalUnicast = some true ∧ parseIP "1.2.3" = none ∧
    parseIP "01.2.3.4" = none ∧
    parseIP "1::2::3" = none := by decide +kernel

end IPAddresses
