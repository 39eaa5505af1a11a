import Subdux.Lib.IPAddresses
import Mathlib.Data.List.TakeWhile
/-!
# The text of addresses and prefixes

`String` and `ParseAddr` of `netip.Addr`, `String`, `Masked` and `ParsePrefix` of
`netip.Prefix`. What is written is read back (`parseAddr_addrText`,
`parsePrefix_prefixText`). A prefix is a range of 128-bit addresses (`Prefix.Covers`);
`contains_iff` says what `Contains` makes of it, which tells the families apart.
-/

namespace IPAddresses

/-! ## Numbers -/

def digitChar (d : Nat) : Char := Char.ofNat (if d < 10 then 48 + d else 87 + d)

/-- `appendDecimal`, of a number below 1000. -/
def decimalText (n : Nat) : List Char :=
  (if 100 ≤ n then [digitChar (n / 100)] else []) ++
    (if 10 ≤ n then [digitChar (n / 10 % 10)] else []) ++ [digitChar (n % 10)]

/-- `appendHex`, of a number of 16 bits. -/
def hexText (n : Nat) : List Char :=
  (if 0x1000 ≤ n then [digitChar (n / 0x1000)] else []) ++
    (if 0x100 ≤ n then [digitChar (n / 0x100 % 16)] else []) ++
    (if 0x10 ≤ n then [digitChar (n / 0x10 % 16)] else []) ++ [digitChar (n % 16)]

/-- The characters of an address. -/
def addrChars : List Char :=
  ['0', '1', '2', '3', '4', '5', '6', '7', '8', '9', 'a', 'b', 'c', 'd', 'e', 'f', '.', ':']

section Numbers
variable {n d : Nat} {c : Char}

theorem digit_digitChar : ∀ d < 10, digit (digitChar d) = some d := by decide

theorem hexDigit_digitChar : ∀ d < 16, hexDigit (digitChar d) = some d := by decide

theorem digitChar_plain :
    ∀ d < 16, digitChar d ∈ addrChars ∧ digitChar d ≠ '.' ∧ digitChar d ≠ ':' := by decide

theorem digitChar_eq_zero : ∀ d < 10, digitChar d = '0' → d = 0 := by decide

theorem mem_decimalText (h : n < 1000) (hc : c ∈ decimalText n) : ∃ d < 10, c = digitChar d := by
  simp only [decimalText, List.mem_append, List.mem_ite_nil_right, List.mem_singleton] at hc
  rcases hc with (⟨-, rfl⟩ | ⟨-, rfl⟩) | rfl
  · exact ⟨n / 100, by omega, rfl⟩
  · exact ⟨n / 10 % 10, by omega, rfl⟩
  · exact ⟨n % 10, by omega, rfl⟩

theorem mem_hexText (h : n < 65536) (hc : c ∈ hexText n) : ∃ d < 16, c = digitChar d := by
  simp only [hexText, List.mem_append, List.mem_ite_nil_right, List.mem_singleton] at hc
  rcases hc with ((⟨-, rfl⟩ | ⟨-, rfl⟩) | ⟨-, rfl⟩) | rfl
  · exact ⟨n / 0x1000, by omega, rfl⟩
  · exact ⟨n / 0x100 % 16, by omega, rfl⟩
  · exact ⟨n / 0x10 % 16, by omega, rfl⟩
  · exact ⟨n % 16, by omega, rfl⟩

theorem hexText_ne_nil : hexText n ≠ [] := by simp [hexText]

/-- The text of a number, one case for each length. -/
theorem decimalText_cases (h : n < 1000) :
    (n < 10 ∧ decimalText n = [digitChar n]) ∨
    (∃ a b, 0 < a ∧ a < 10 ∧ b < 10 ∧ n = 10 * a + b ∧ decimalText n = [digitChar a, digitChar b]) ∨
    (∃ a b c, 0 < a ∧ a < 10 ∧ b < 10 ∧ c < 10 ∧ n = 100 * a + 10 * b + c ∧
      decimalText n = [digitChar a, digitChar b, digitChar c]) := by
  unfold decimalText
  by_cases hone : n < 10
  · refine .inl ⟨hone, ?_⟩
    rw [if_neg (by omega), if_neg (by omega), Nat.mod_eq_of_lt hone]
    rfl
  by_cases htwo : n < 100
  · refine .inr (.inl ⟨n / 10, n % 10, by omega, by omega, by omega, by omega, ?_⟩)
    rw [if_neg (by omega), if_pos (by omega), Nat.mod_eq_of_lt (show n / 10 < 10 by omega)]
    rfl
  · refine .inr (.inr
      ⟨n / 100, n / 10 % 10, n % 10, by omega, by omega, by omega, by omega, by omega, ?_⟩)
    rw [if_pos (by omega), if_pos (by omega)]
    rfl

theorem length_decimalText (h : n < 1000) : (decimalText n).length ≤ 3 := by
  rcases decimalText_cases h with ⟨-, htext⟩ | ⟨a, b, -, -, -, -, htext⟩ |
    ⟨a, b, c, -, -, -, -, -, htext⟩
  all_goals simp [htext]

/-- A number is read back, with no leading zero. -/
theorem number_decimalText (h : n < 1000) {maxDigits : Nat} (hmax : (decimalText n).length ≤ maxDigits) :
    number 10 maxDigits digit (decimalText n) = some n ∧
    ¬ (1 < (decimalText n).length ∧ (decimalText n).head? = some '0') := by
  rcases decimalText_cases h with ⟨hlt, htext⟩ | ⟨a, b, hpos, ha, hb, rfl, htext⟩ |
    ⟨a, b, c, hpos, ha, hb, hc, rfl, htext⟩
  · rw [htext] at hmax ⊢
    rw [number, if_neg (not_or.2 ⟨List.cons_ne_nil _ _, not_lt.2 hmax⟩)]
    simp [digit_digitChar n hlt]
  · rw [htext] at hmax ⊢
    rw [number, if_neg (not_or.2 ⟨List.cons_ne_nil _ _, not_lt.2 hmax⟩)]
    refine ⟨by simp [digit_digitChar a ha, digit_digitChar b hb]; omega, ?_⟩
    rintro ⟨-, hzero⟩
    have := digitChar_eq_zero a ha (by simpa using hzero)
    omega
  · rw [htext] at hmax ⊢
    rw [number, if_neg (not_or.2 ⟨List.cons_ne_nil _ _, not_lt.2 hmax⟩)]
    refine ⟨by simp [digit_digitChar a ha, digit_digitChar b hb, digit_digitChar c hc]; omega, ?_⟩
    rintro ⟨-, hzero⟩
    have := digitChar_eq_zero a ha (by simpa using hzero)
    omega

theorem field4_decimalText (h : n ≤ 255) : field4 (decimalText n) = some n := by
  obtain ⟨hnumber, hzero⟩ := number_decimalText (show n < 1000 by omega) (length_decimalText (by omega))
  rw [field4, if_neg hzero, hnumber]
  simpa using h

theorem number_hexText (h : n < 65536) : number 16 4 hexDigit (hexText n) = some n := by
  have hlow := hexDigit_digitChar (n % 16) (by omega)
  unfold hexText
  by_cases hone : n < 0x10
  · rw [if_neg (by omega), if_neg (by omega), if_neg (by omega)]
    simp [number, hlow]
    omega
  have h1 := hexDigit_digitChar (n / 0x10 % 16) (by omega)
  by_cases htwo : n < 0x100
  · rw [if_neg (by omega), if_neg (by omega), if_pos (by omega)]
    simp [number, hlow, h1]
    omega
  have h2 := hexDigit_digitChar (n / 0x100 % 16) (by omega)
  by_cases hthree : n < 0x1000
  · rw [if_neg (by omega), if_pos (by omega), if_pos (by omega)]
    simp [number, hlow, h1, h2]
    omega
  have h3 := hexDigit_digitChar (n / 0x1000) (by omega)
  rw [if_pos (by omega), if_pos (by omega), if_pos (by omega)]
  simp [number, hlow, h1, h2, h3]
  omega

end Numbers

/-! ## Addresses -/

/-- The address with the IPv4 address in its mapped form. -/
def mapped (bits : BitVec 32) : BitVec 128 := (0xffff : BitVec 96) ++ bits

def bytes4 (bits : BitVec 32) : List Nat := [byte4 bits 0, byte4 bits 1, byte4 bits 2, byte4 bits 3]

def ofFields4 (fields : List Nat) : BitVec 32 :=
  BitVec.ofNat 32 (fields.getD 0 0 * 0x1000000 + fields.getD 1 0 * 0x10000 +
    fields.getD 2 0 * 0x100 + fields.getD 3 0)

/-- Group `i` of an IPv6 address. -/
def group (bits : BitVec 128) (i : Nat) : Nat := (bits.extractLsb' (16 * (7 - i)) 16).toNat

def groups (bits : BitVec 128) : List Nat := (List.range 8).map (group bits)

/-- The first of the longest runs of at least two zero groups: where it starts and its length. -/
def zeroRun (groups : List Nat) : Nat × Nat :=
  (List.range groups.length).foldl (fun best i =>
    let length := ((groups.drop i).takeWhile (· = 0)).length
    if 2 ≤ length ∧ best.2 < length then (i, length) else best) (0, 0)

def joined (sep : Char) (parts : List (List Char)) : List Char := [sep].intercalate parts

def text4 (bits : BitVec 32) : List Char := joined '.' ((bytes4 bits).map decimalText)

/-- `appendTo6`. -/
def text6 (groups : List Nat) : List Char :=
  let run := zeroRun groups
  if run.2 = 0 then joined ':' (groups.map hexText)
  else joined ':' ((groups.take run.1).map hexText) ++ [':', ':'] ++ joined ':'
    ((groups.drop (run.1 + run.2)).map hexText)

/-- `Addr.String`. -/
def addrText : Addr → List Char
  | .v4 bits => text4 bits
  | .v6 bits =>
    match (IP.mk bits).to4 with
    | some ip4 => [':', ':', 'f', 'f', 'f', 'f', ':'] ++ text4 ip4
    | none => text6 (groups bits)

/-- `ParseAddr`: the address and its zone. -/
def parseAddr (cs : List Char) : Option (Addr × List Char) :=
  match cs.find? fun c => c = '.' || c = ':' || c = '%' with
  | some '.' => (parse4 cs).map fun fields => (.v4 (ofFields4 fields), [])
  | some ':' =>
    let zone := cs.dropWhile (· ≠ '%')
    if zone = ['%'] then none else (parse6 (cs.takeWhile (· ≠ '%'))).map fun ip =>
      (.v6 ip.bits, zone.drop 1)
  | _ => none

example : (parseAddr "fe80::1%eth0".toList).map (fun a => (addrText a.1, a.2)) = some
    ("fe80::1".toList, "eth0".toList) ∧ (parseAddr "0:0:1:0:0:0:2:0".toList).map
    (fun a => addrText a.1) = some "0:0:1::2:0".toList ∧ (parseAddr "::FFFF:A00:1".toList).map
    (fun a => addrText a.1) = some "::ffff:10.0.0.1".toList ∧ (parseAddr "::".toList).map
    (fun a => addrText a.1) = some "::".toList ∧ (parseAddr "1:0:2:3:4:5:6:7".toList).map
    (fun a => addrText a.1) = some "1:0:2:3:4:5:6:7".toList := by decide +kernel

section Texts
variable {sep c : Char} {parts : List (List Char)} {bits : BitVec 32} {gs : List Nat}

theorem joined_cons_cons (sep : Char) (p q : List Char) (parts : List (List Char)) :
    joined sep (p :: q :: parts) = p ++ sep :: joined sep (q :: parts) := by
  simp [joined]

theorem mem_joined (h : c ∈ joined sep parts) : c = sep ∨ ∃ p ∈ parts, c ∈ p := by
  induction parts with
  | nil => cases h
  | cons p parts ih =>
    cases parts with
    | nil => exact .inr ⟨p, List.mem_singleton_self p, by simpa [joined] using h⟩
    | cons q parts =>
      rw [joined_cons_cons, List.mem_append, List.mem_cons] at h
      rcases h with h | h | h
      · exact .inr ⟨p, List.mem_cons_self, h⟩
      · exact .inl h
      · obtain hsep | ⟨q', hq', hc⟩ := ih h
        · exact .inl hsep
        · exact .inr ⟨q', List.mem_cons_of_mem p hq', hc⟩

theorem splitOn_joined (hparts : ∀ p ∈ parts, sep ∉ p) (hne : parts ≠ []) :
    (joined sep parts).splitOn sep = parts :=
  List.splitOn_intercalate sep hparts hne

theorem byte4_le (bits : BitVec 32) (i : Nat) : byte4 bits i ≤ 255 := Nat.le_of_lt_succ (BitVec.isLt _)

theorem group_lt (bits : BitVec 128) (i : Nat) : group bits i < 65536 := BitVec.isLt _

theorem mem_bytes4 {n : Nat} (h : n ∈ bytes4 bits) : n ≤ 255 := by
  simp only [bytes4, List.mem_cons, List.not_mem_nil, or_false] at h
  rcases h with rfl | rfl | rfl | rfl
  all_goals exact byte4_le bits _

theorem mem_groups {bits : BitVec 128} {n : Nat} (h : n ∈ groups bits) : n < 65536 := by
  obtain ⟨i, -, rfl⟩ := List.mem_map.1 h
  exact group_lt bits i

theorem decimalText_plain {n : Nat} (h : n ≤ 255) (hc : c ∈ decimalText n) :
    c ∈ addrChars ∧ c ≠ '.' ∧ c ≠ ':' := by
  obtain ⟨d, hd, rfl⟩ := mem_decimalText (by omega) hc
  exact digitChar_plain d (by omega)

theorem hexText_plain {n : Nat} (h : n < 65536) (hc : c ∈ hexText n) :
    c ∈ addrChars ∧ c ≠ '.' ∧ c ≠ ':' := by
  obtain ⟨d, hd, rfl⟩ := mem_hexText h hc
  exact digitChar_plain d hd

/-- What stands in an IPv4 address. -/
theorem mem_text4 (h : c ∈ text4 bits) : c ∈ addrChars ∧ c ≠ ':' := by
  rcases mem_joined h with rfl | ⟨p, hp, hc⟩
  · decide
  · obtain ⟨n, hn, rfl⟩ := List.mem_map.1 hp
    exact ⟨(decimalText_plain (mem_bytes4 hn) hc).1, (decimalText_plain (mem_bytes4 hn) hc).2.2⟩

theorem dot_mem_text4 (bits : BitVec 32) : '.' ∈ text4 bits := by
  simp [text4, bytes4, joined]

theorem mem_joined_hex (hgs : ∀ g ∈ gs, g < 65536) (h : c ∈ joined ':' (gs.map hexText)) :
    c ∈ addrChars ∧ c ≠ '.' := by
  rcases mem_joined h with rfl | ⟨p, hp, hc⟩
  · decide
  · obtain ⟨g, hg, rfl⟩ := List.mem_map.1 hp
    exact ⟨(hexText_plain (hgs g hg) hc).1, (hexText_plain (hgs g hg) hc).2.1⟩

/-- What stands in an IPv6 address without a dotted tail. -/
theorem mem_text6 (hgs : ∀ g ∈ gs, g < 65536) (h : c ∈ text6 gs) : c ∈ addrChars ∧ c ≠ '.' := by
  simp only [text6] at h
  split at h
  · exact mem_joined_hex hgs h
  · rw [List.mem_append, List.mem_append] at h
    rcases h with (h | h) | h
    · exact mem_joined_hex (fun g hg => hgs g (List.mem_of_mem_take hg)) h
    · have hcolon : c = ':' := by simpa using h
      rw [hcolon]
      decide
    · exact mem_joined_hex (fun g hg => hgs g (List.mem_of_mem_drop hg)) h

theorem mem_addrText {a : Addr} (h : c ∈ addrText a) : c ∈ addrChars := by
  cases a with
  | v4 bits => exact (mem_text4 h).1
  | v6 bits =>
    simp only [addrText] at h
    split at h
    · rcases List.mem_append.1 h with h | h
      · exact (show ∀ c ∈ [':', ':', 'f', 'f', 'f', 'f', ':'], c ∈ addrChars by simp [addrChars]) c h
      · exact (mem_text4 h).1
    · exact (mem_text6 (fun g => mem_groups) h).1

/-! ### IPv4 -/

theorem parse4_text4 (bits : BitVec 32) : parse4 (text4 bits) = some (bytes4 bits) := by
  have hparts : ∀ p ∈ (bytes4 bits).map decimalText, '.' ∉ p := by
    intro p hp hdot
    obtain ⟨n, hn, rfl⟩ := List.mem_map.1 hp
    exact (decimalText_plain (mem_bytes4 hn) hdot).2.1 rfl
  rw [parse4, text4, splitOn_joined hparts (by simp [bytes4])]
  simp [bytes4, field4_decimalText (byte4_le bits _)]

theorem ofFields4_bytes4 (bits : BitVec 32) : ofFields4 (bytes4 bits) = bits := by
  apply BitVec.eq_of_toNat_eq
  have hlt := bits.isLt
  simp only [ofFields4, bytes4, byte4, List.getD_cons_zero, List.getD_cons_succ, BitVec.toNat_ofNat,
    BitVec.extractLsb'_toNat,
    Nat.shiftRight_eq_div_pow]
  omega

/-! ### Runs of zeros -/

/-- The run is of zeros, when there is one. -/
theorem zeroRun_spec (gs : List Nat) :
    (zeroRun gs).2 = 0 ∨ (zeroRun gs).1 + (zeroRun gs).2 ≤ gs.length ∧ 2 ≤ (zeroRun gs).2 ∧
    (gs.drop (zeroRun gs).1).take (zeroRun gs).2 = List.replicate (zeroRun gs).2 0 := by
  unfold zeroRun
  apply List.foldlRecOn (List.range gs.length)
    (motive := fun run : Nat × Nat =>
      run.2 = 0 ∨ run.1 + run.2 ≤ gs.length ∧ 2 ≤ run.2 ∧
        (gs.drop run.1).take run.2 = List.replicate run.2 0)
  · exact .inl rfl
  · intro run hrun i hi
    dsimp only
    split
    · rename_i hlonger
      have hlen : ((gs.drop i).takeWhile (· = 0)).length ≤ (gs.drop i).length :=
        (List.takeWhile_prefix _).length_le
      have hi' := List.mem_range.1 hi
      rw [List.length_drop] at hlen
      refine .inr ⟨by dsimp only; omega, hlonger.1, ?_⟩
      dsimp only
      rw [List.prefix_iff_eq_take.1
        (List.takeWhile_prefix (l := gs.drop i) (p := fun x => decide (x = 0))) |>.symm]
      exact List.eq_replicate_iff.2 ⟨rfl, fun x hx => by simpa using List.mem_takeWhile_imp hx⟩
    · exact hrun

/-! ### IPv6 -/

/-- No double colon begins in a part without colons. -/
theorem splitEllipsis_append {p : List Char} (hp : ':' ∉ p) (cs : List Char) :
    splitEllipsis (p ++ cs) = (splitEllipsis cs).map fun (left, right) => (p ++ left, right) := by
  induction p with
  | nil => simp
  | cons c p ih =>
    have hc : c ≠ ':' := fun h => hp (h ▸ List.mem_cons_self)
    rw [List.cons_append, splitEllipsis, ih (fun h => hp (List.mem_cons_of_mem c h)), Option.map_map]
    · rfl
    · intro rest h
      exact absurd h hc

theorem splitEllipsis_colon (hc : c ≠ ':') (cs : List Char) :
    splitEllipsis (':' :: c :: cs) = (splitEllipsis (c :: cs)).map fun (left, right) =>
    (':' :: left, right) := by
  rw [splitEllipsis]
  intro rest _ h
  exact hc (List.cons.inj h).1

/-- No double colon begins in a text joined by single colons. -/
theorem splitEllipsis_joined (hparts : ∀ p ∈ parts, p ≠ [] ∧ ':' ∉ p) (tail : List Char) :
    splitEllipsis (joined ':' parts ++ tail) = (splitEllipsis tail).map fun (left, right) =>
    (joined ':' parts ++ left, right) := by
  induction parts with
  | nil => simp [joined]
  | cons p parts ih =>
    obtain ⟨-, hp⟩ := hparts p List.mem_cons_self
    have ih := ih fun q hq => hparts q (List.mem_cons_of_mem p hq)
    cases parts with
    | nil =>
      have hjoined : joined ':' [p] = p := by simp [joined]
      rw [hjoined, splitEllipsis_append hp]
    | cons q parts =>
      obtain ⟨hne, hq⟩ := hparts q (List.mem_cons_of_mem p List.mem_cons_self)
      obtain ⟨c, q', rfl⟩ := List.exists_cons_of_ne_nil hne
      have hc : c ≠ ':' := fun h => hq (h ▸ List.mem_cons_self)
      obtain ⟨rest, hrest⟩ : ∃ rest, joined ':' ((c :: q') :: parts) = c :: rest := by
        cases parts with
        | nil => exact ⟨q', by simp [joined]⟩
        | cons r parts => exact ⟨_, by rw [joined_cons_cons, List.cons_append]⟩
      rw [hrest, List.cons_append] at ih
      rw [joined_cons_cons, hrest, List.append_assoc, List.cons_append, List.cons_append,
        splitEllipsis_append hp,
        splitEllipsis_colon hc, ih, Option.map_map, Option.map_map]
      simp [Function.comp_def]

theorem hexText_part {g : Nat} (h : g < 65536) : hexText g ≠ [] ∧ ':' ∉ hexText g :=
  ⟨hexText_ne_nil, fun hc => (hexText_plain h hc).2.2 rfl⟩

theorem hexTexts_parts (hgs : ∀ g ∈ gs, g < 65536) : ∀ p ∈ gs.map hexText, p ≠ [] ∧ ':' ∉ p := by
  intro p hp
  obtain ⟨g, hg, rfl⟩ := List.mem_map.1 hp
  exact hexText_part (hgs g hg)

/-- The groups of a text of groups. -/
theorem parseGroups_hexTexts (last : Bool) (hgs : ∀ g ∈ gs, g < 65536) :
    parseGroups last (gs.map hexText) = some gs := by
  induction gs with
  | nil => rfl
  | cons g gs ih =>
    have hg := hgs g List.mem_cons_self
    have hnumber := number_hexText hg
    have ih := ih fun g' hg' => hgs g' (List.mem_cons_of_mem g hg')
    cases gs with
    | nil =>
      have hdot : ¬ (last = true ∧ '.' ∈ hexText g) := fun h => (hexText_plain hg h.2).2.1 rfl
      simp only [List.map_cons, List.map_nil, parseGroups, if_neg hdot, hnumber, Option.map_some]
    | cons g' gs =>
      rw [List.map_cons] at ih ⊢
      rw [List.map_cons, parseGroups, hnumber, ih]
      · rfl
      · intro h
        cases h

theorem parsePart_joined (last : Bool) (hgs : ∀ g ∈ gs, g < 65536) :
    parsePart last (joined ':' (gs.map hexText)) = some gs := by
  cases gs with
  | nil => rfl
  | cons g gs =>
    have hne : joined ':' ((g :: gs).map hexText) ≠ [] := by
      obtain ⟨c, cs, hcs⟩ := List.exists_cons_of_ne_nil (hexText_ne_nil (n := g))
      cases gs with
      | nil => simp [joined, hcs]
      | cons g' gs => simp [joined_cons_cons, hcs]
    rw [parsePart, if_neg hne, splitOn_joined (fun p hp => (hexTexts_parts hgs p hp).2) (by simp),
      parseGroups_hexTexts last hgs]

/-- Eight groups are read back, whether a run of zeros is left out or not. -/
theorem parse6_text6 (hgs : ∀ g ∈ gs, g < 65536) (hlen : gs.length = 8) :
    parse6 (text6 gs) = some (ofGroups gs) := by
  have hparts := hexTexts_parts hgs
  simp only [text6]
  split
  · have hnone : splitEllipsis (joined ':' (gs.map hexText)) = none := by
      have h := splitEllipsis_joined hparts []
      rwa [List.append_nil] at h
    have hne : gs.map hexText ≠ [] := by
      rintro h
      rw [List.map_eq_nil_iff.1 h] at hlen
      cases hlen
    rw [parse6, hnone, splitOn_joined (fun p hp => (hparts p hp).2) hne, parseGroups_hexTexts true hgs]
    simp [hlen]
  · rename_i hrun
    obtain ⟨hle, htwo, hzeros⟩ := (zeroRun_spec gs).resolve_left hrun
    have htake : ∀ g ∈ gs.take (zeroRun gs).1, g < 65536 := fun g hg => hgs g (List.mem_of_mem_take hg)
    have hdrop : ∀ g ∈ gs.drop ((zeroRun gs).1 + (zeroRun gs).2), g < 65536 :=
      fun g hg => hgs g (List.mem_of_mem_drop hg)
    have hsplit : ∀ left right,
        splitEllipsis (joined ':' ((gs.take left).map hexText) ++ [':', ':'] ++ right) =
        some (joined ':' ((gs.take left).map hexText), right) := by
      intro left right
      rw [List.append_assoc, splitEllipsis_joined
        (hexTexts_parts fun g hg => hgs g (List.mem_of_mem_take hg))]
      simp [splitEllipsis]
    have hfirst : (gs.take (zeroRun gs).1).length = (zeroRun gs).1 := List.length_take_of_le (by omega)
    have hlast : (gs.drop ((zeroRun gs).1 + (zeroRun gs).2)).length = 8 - (zeroRun gs).1 -
        (zeroRun gs).2 := by
      rw [List.length_drop]
      omega
    have hgroups : gs.take (zeroRun gs).1 ++ List.replicate (zeroRun gs).2 0 ++ gs.drop
        ((zeroRun gs).1 + (zeroRun gs).2) = gs := by
      rw [← hzeros, ← List.drop_drop, List.append_assoc, List.take_append_drop, List.take_append_drop]
    have hcount : 8 - (zeroRun gs).1 - (8 - (zeroRun gs).1 - (zeroRun gs).2) = (zeroRun gs).2 := by omega
    rw [parse6, hsplit]
    dsimp only
    rw [parsePart_joined false htake, Option.bind_some, parsePart_joined true hdrop,
      Option.bind_some, hfirst, hlast,
      if_pos (by omega), hcount, hgroups]

theorem ofGroups_groups (bits : BitVec 128) : ofGroups (groups bits) = ⟨bits⟩ := by
  have hlt := bits.isLt
  have hgroups : groups bits =
      [group bits 0, group bits 1, group bits 2, group bits 3, group bits 4, group bits 5, group bits 6,
    group bits 7] := rfl
  rw [ofGroups, hgroups]
  apply congrArg
  apply BitVec.eq_of_toNat_eq
  simp only [group, List.foldl_cons, List.foldl_nil, BitVec.toNat_ofNat, BitVec.extractLsb'_toNat,
    Nat.shiftRight_eq_div_pow]
  omega

/-! ### IPv4 addresses in IPv6 -/

theorem mapped_toNat (bits : BitVec 32) : (mapped bits).toNat = 0xffff * 0x100000000 + bits.toNat := by
  rw [mapped, BitVec.toNat_append, ← Nat.shiftLeft_add_eq_or_of_lt bits.isLt, Nat.shiftLeft_eq]
  rfl

/-- `To4` finds the mapped addresses. -/
theorem to4_eq_some_iff {ip : IP} : ip.to4 = some bits ↔ ip.bits = mapped bits := by
  unfold IP.to4
  constructor
  · intro h
    rw [Option.ite_none_right_eq_some] at h
    obtain ⟨hstart, hlow⟩ := h
    rw [mapped, ← hstart, ← Option.some.inj hlow]
    exact (@BitVec.extractLsb'_append_extractLsb' 96 32 ip.bits).symm
  · intro h
    have hstart : ip.bits.extractLsb' 32 96 = 0xffff := by
      rw [h, mapped, BitVec.extractLsb'_append_eq_left]
    have hlow : ip.bits.extractLsb' 0 32 = bits := by
      rw [h, mapped, BitVec.extractLsb'_append_eq_right]
    rw [if_pos hstart, hlow]

theorem parse6_mapped (bits : BitVec 32) :
    parse6 ([':', ':', 'f', 'f', 'f', 'f', ':'] ++ text4 bits) = some ⟨mapped bits⟩ := by
  have hsplit : splitEllipsis ([':', ':', 'f', 'f', 'f', 'f', ':'] ++ text4 bits) =
      some ([], joined ':' [['f', 'f', 'f', 'f'], text4 bits]) := by
    simp [splitEllipsis, joined]
  have hne : joined ':' [['f', 'f', 'f', 'f'], text4 bits] ≠ [] := by simp [joined]
  have hparts : ∀ p ∈ [['f', 'f', 'f', 'f'], text4 bits], ':' ∉ p := by
    intro p hp
    rcases List.mem_cons.1 hp with rfl | hp
    · decide
    · rw [List.mem_singleton.1 hp]
      exact fun h => (mem_text4 h).2 rfl
  have hfirst : number 16 4 hexDigit ['f', 'f', 'f', 'f'] = some 0xffff := by decide
  have hlast : parsePart true (joined ':' [['f', 'f', 'f', 'f'], text4 bits]) =
      some [0xffff, byte4 bits 0 * 256 + byte4 bits 1, byte4 bits 2 * 256 + byte4 bits 3] := by
    rw [parsePart, if_neg hne, splitOn_joined hparts (by simp), parseGroups, hfirst,
      Option.bind_some, parseGroups,
      if_pos ⟨rfl, dot_mem_text4 bits⟩, parse4_text4]
    · rfl
    · intro h
      cases h
  rw [parse6, hsplit]
  dsimp only
  rw [hlast, parsePart, if_pos rfl, Option.bind_some, Option.bind_some, if_pos (by simp), ofGroups]
  apply congrArg
  apply congrArg
  apply BitVec.eq_of_toNat_eq
  have hlt := bits.isLt
  rw [mapped_toNat]
  simp only [byte4, List.length_nil, List.length_cons, List.nil_append, List.replicate,
    List.cons_append, List.foldl_cons,
    List.foldl_nil, BitVec.toNat_ofNat, BitVec.extractLsb'_toNat, Nat.shiftRight_eq_div_pow]
  omega

/-! ### What is written is read back -/

theorem find?_eq_of_unique {p : Char → Bool} {cs : List Char} (hmem : c ∈ cs) (hc : p c = true)
    (h : ∀ d ∈ cs, p d = true → d = c) :
    cs.find? p = some c := by
  obtain ⟨d, hd⟩ := Option.isSome_iff_exists.1 (List.find?_isSome.2 ⟨c, hmem, hc⟩)
  rw [hd, h d (List.mem_of_find?_eq_some hd) (List.find?_some hd)]

theorem parseAddr_text4 (bits : BitVec 32) : parseAddr (text4 bits) = some (.v4 bits, []) := by
  have hfind : (text4 bits).find? (fun c => c = '.' || c = ':' || c = '%') = some '.' := by
    refine find?_eq_of_unique (dot_mem_text4 bits) rfl fun c hc hsign => ?_
    obtain ⟨hchar, hcolon⟩ := mem_text4 hc
    simp only [Bool.or_eq_true, decide_eq_true_eq] at hsign
    rcases hsign with (h | h) | h
    · exact h
    · exact absurd h hcolon
    · exact absurd (h ▸ hchar) (by decide)
  rw [parseAddr, hfind]
  simp only [parse4_text4, Option.map_some, ofFields4_bytes4]

/-- An IPv6 address without a zone. -/
theorem parseAddr_of_parse6 {cs : List Char} {ip : IP} (h : parse6 cs = some ip)
    (hfind : cs.find? (fun c => c = '.' || c = ':' || c = '%') = some ':') (hzone : '%' ∉ cs) :
    parseAddr cs = some (.v6 ip.bits, []) := by
  have hplain : ∀ c ∈ cs, decide (c ≠ '%') = true := fun c hc => decide_eq_true fun h => hzone (h ▸ hc)
  rw [parseAddr, hfind]
  dsimp only
  rw [List.dropWhile_eq_nil_iff.2 hplain, List.takeWhile_eq_self_iff.2 hplain, if_neg (by decide), h]
  rfl

theorem colon_mem_text6 (hlen : gs.length = 8) : ':' ∈ text6 gs := by
  simp only [text6]
  split
  · cases gs with
    | nil => cases hlen
    | cons g gs =>
      cases gs with
      | nil => simp at hlen
      | cons g' gs =>
        rw [List.map_cons, List.map_cons, joined_cons_cons]
        exact List.mem_append_right _ List.mem_cons_self
  · simp

/-- The text of an address is read as the address. -/
theorem parseAddr_addrText (a : Addr) : parseAddr (addrText a) = some (a, []) := by
  have hzone : '%' ∉ addrText a := fun h => absurd (mem_addrText h) (by decide)
  cases a with
  | v4 bits => exact parseAddr_text4 bits
  | v6 bits =>
    cases hmapped : (IP.mk bits).to4 with
    | some ip4 =>
      have htext : addrText (.v6 bits) = [':', ':', 'f', 'f', 'f', 'f', ':'] ++ text4 ip4 := by
        rw [addrText, hmapped]
      have hbits : bits = mapped ip4 := to4_eq_some_iff.1 hmapped
      rw [htext] at hzone ⊢
      rw [hbits]
      exact parseAddr_of_parse6 (parse6_mapped ip4) (by simp) hzone
    | none =>
      have htext : addrText (.v6 bits) = text6 (groups bits) := by rw [addrText, hmapped]
      have hread := parse6_text6 (fun g => mem_groups) (show (groups bits).length = 8 by simp [groups])
      rw [ofGroups_groups] at hread
      rw [htext] at hzone ⊢
      refine parseAddr_of_parse6 hread
        (find?_eq_of_unique (colon_mem_text6 (by simp [groups])) rfl fun c hc hsign => ?_) hzone
      obtain ⟨hchar, hdot⟩ := mem_text6 (fun g => mem_groups) hc
      simp only [Bool.or_eq_true, decide_eq_true_eq] at hsign
      rcases hsign with (h | h) | h
      · exact absurd h hdot
      · exact h
      · exact absurd (h ▸ hchar) (by decide)

end Texts

/-! ## Prefixes -/

def Addr.is4 : Addr → Bool
  | .v4 _ => true
  | .v6 _ => false

def Addr.bitLen : Addr → Nat
  | .v4 _ => 32
  | .v6 _ => 128

/-- The leading bits, and zeros. -/
def leadingBits {w : Nat} (n : Nat) (bits : BitVec w) : BitVec w :=
  bits &&& (BitVec.allOnes w <<< (w - n))

def Prefix.masked (p : Prefix) : Prefix :=
  match p.addr with
  | .v4 bits => ⟨.v4 (leadingBits p.bits bits), p.bits⟩
  | .v6 bits => ⟨.v6 (leadingBits p.bits bits), p.bits⟩

/-- `Prefix.String`. -/
def prefixText (p : Prefix) : List Char := addrText p.addr ++ '/' :: decimalText p.bits

def parseBits (maxBits : Nat) (cs : List Char) : Option Nat :=
  if 1 < cs.length ∧ cs.head? = some '0' then none else (number 10 cs.length digit cs).filter
    (· ≤ maxBits)

/-- `ParsePrefix`: an address without a zone, and behind the last slash a number of bits. -/
def parsePrefix (cs : List Char) : Option Prefix :=
  let bits := (cs.reverse.takeWhile (· ≠ '/')).reverse
  if '/' ∉ cs then none
  else
    match parseAddr (cs.take (cs.length - bits.length - 1)) with
    | some (addr, []) => (parseBits addr.bitLen bits).map (Prefix.mk addr)
    | _ => none

example : (parsePrefix "10.1.2.3/8".toList).map
    (fun p => prefixText p.masked) = some "10.0.0.0/8".toList ∧
    (parsePrefix "fe80::1%eth0/64".toList).isNone ∧ (parsePrefix "10.0.0.0/08".toList).isNone ∧
    (parsePrefix "::ffff:10.0.0.0/90".toList).map
    (fun p => prefixText p.masked) = some "::ffc0:0:0/90".toList := by decide +kernel

/-- Two addresses have the same leading bits. -/
def Share {w : Nat} (n : Nat) (a b : BitVec w) : Prop := ∀ i < n, a.getMsbD i = b.getMsbD i

/-- The range of a prefix, an IPv4 one in its mapped form. -/
def Prefix.Covers (p : Prefix) (ip : IP) : Prop :=
  match p.addr with
  | .v4 bits => Share (96 + p.bits) (mapped bits) ip.bits
  | .v6 bits => Share p.bits bits ip.bits

section Prefixes
variable {w n : Nat} {a b : BitVec w}

theorem shiftRight_eq_zero_iff (hn : n ≤ w) : a >>> (w - n) = 0 ↔ ∀ i < n, a.getMsbD i = false := by
  constructor
  · intro h i hi
    have hbit : (a >>> (w - n)).getLsbD (n - 1 - i) = false := by
      rw [h]
      exact BitVec.getLsbD_zero
    rw [BitVec.getLsbD_ushiftRight] at hbit
    rw [BitVec.getMsbD_eq_getLsbD, show w - 1 - i = w - n + (n - 1 - i) by omega, hbit, Bool.and_false]
  · intro h
    apply BitVec.eq_of_getLsbD_eq
    intro i hi
    rw [BitVec.getLsbD_ushiftRight, BitVec.ofNat_eq_ofNat, BitVec.getLsbD_zero]
    by_cases hlt : w - n + i < w
    · have hbit := h (n - 1 - i) (by omega)
      rw [BitVec.getMsbD_eq_getLsbD, show w - 1 - (n - 1 - i) = w - n + i by omega] at hbit
      simpa [show n - 1 - i < w by omega] using hbit
    · exact BitVec.getLsbD_of_ge _ _ (by omega)

/-- `Contains` compares the leading bits. -/
theorem xor_shiftRight_iff (hn : n ≤ w) : (a ^^^ b) >>> (w - n) = 0 ↔ Share n a b := by
  rw [shiftRight_eq_zero_iff hn]
  simp [Share]

theorem getMsbD_leadingBits (hn : n ≤ w) (i : Nat) :
    (leadingBits n a).getMsbD i = (decide (i < n) && a.getMsbD i) := by
  rw [leadingBits, BitVec.getMsbD_and, BitVec.getMsbD_shiftLeft, BitVec.getMsbD_allOnes, Bool.and_comm]
  congr 1
  rw [decide_eq_decide]
  omega

theorem leadingBits_leadingBits (n : Nat) (a : BitVec w) :
    leadingBits n (leadingBits n a) = leadingBits n a := by
  rw [leadingBits, leadingBits, BitVec.and_assoc, BitVec.and_self]

theorem leadingBits_full (a : BitVec w) : leadingBits w a = a := by
  rw [leadingBits, Nat.sub_self, BitVec.shiftLeft_zero, BitVec.and_allOnes]

theorem share_leadingBits (hn : n ≤ w) : Share n (leadingBits n a) b ↔ Share n a b := by
  refine forall_congr' fun i => imp_congr_right fun hi => ?_
  rw [getMsbD_leadingBits hn, decide_eq_true hi, Bool.true_and]

variable {x y : BitVec 32} {bits : BitVec 128}

theorem getMsbD_mapped (x : BitVec 32) (i : Nat) :
    (mapped x).getMsbD i = if 96 ≤ i then x.getMsbD (i - 96) else (0xffff : BitVec 96).getMsbD i :=
  BitVec.getMsbD_append

/-- The range of an IPv4 prefix holds mapped addresses only. -/
theorem share_mapped_iff : Share (96 + n) (mapped x) bits ↔ ∃ y, bits = mapped y ∧ Share n x y := by
  constructor
  · intro h
    have hstart : bits.extractLsb' 32 96 = 0xffff := by
      apply BitVec.eq_of_getMsbD_eq
      intro i hi
      have hbit := h i (by omega)
      rw [getMsbD_mapped, if_neg (by omega)] at hbit
      rw [BitVec.getMsbD_extractLsb', show 128 - (32 + 96 - i) = i by omega, ← hbit, decide_eq_true hi,
        decide_eq_true (show 32 + 96 - i ≤ 128 by omega), Bool.true_and, Bool.true_and]
    have hbits : bits = mapped (bits.extractLsb' 0 32) := by
      rw [mapped, ← hstart]
      exact (@BitVec.extractLsb'_append_extractLsb' 96 32 bits).symm
    refine ⟨bits.extractLsb' 0 32, hbits, fun i hi => ?_⟩
    have hbit := h (96 + i) (by omega)
    rw [hbits, getMsbD_mapped, getMsbD_mapped, if_pos (by omega), if_pos (by omega),
      Nat.add_sub_cancel_left] at hbit
    exact hbit
  · rintro ⟨y, rfl, h⟩ i hi
    rw [getMsbD_mapped, getMsbD_mapped]
    split
    · exact h _ (by omega)
    · rfl

theorem mapped_inj (h : mapped x = mapped y) : x = y :=
  Option.some.inj ((to4_eq_some_iff.2 (rfl : (IP.mk (mapped x)).bits = mapped x)).symm.trans
    (to4_eq_some_iff.2 h))

end Prefixes

section Ranges
variable {p : Prefix} {ip : IP} {cs : List Char}

theorem masked_addr_is4 (p : Prefix) : p.masked.addr.is4 = p.addr.is4 := by
  obtain ⟨addr, n⟩ := p
  cases addr <;> rfl

theorem masked_valid (hp : p.bits ≤ p.addr.bitLen) : p.masked.bits ≤ p.masked.addr.bitLen := by
  obtain ⟨addr, n⟩ := p
  cases addr <;> exact hp

theorem masked_masked (p : Prefix) : p.masked.masked = p.masked := by
  obtain ⟨addr, n⟩ := p
  cases addr <;> simp [Prefix.masked, leadingBits_leadingBits]

theorem masked_of_full (hp : p.bits = p.addr.bitLen) : p.masked = p := by
  obtain ⟨addr, n⟩ := p
  cases addr with
  | v4 bits =>
    obtain rfl : n = 32 := hp
    exact congrArg (fun b => Prefix.mk (.v4 b) 32) (leadingBits_full bits)
  | v6 bits =>
    obtain rfl : n = 128 := hp
    exact congrArg (fun b => Prefix.mk (.v6 b) 128) (leadingBits_full bits)

/-- Masking an address keeps the range. -/
theorem covers_masked (hp : p.bits ≤ p.addr.bitLen) : p.masked.Covers ip ↔ p.Covers ip := by
  obtain ⟨addr, n⟩ := p
  cases addr with
  | v4 bits =>
    simp only [Prefix.masked, Prefix.Covers, share_mapped_iff]
    exact exists_congr fun y => and_congr_right fun _ => share_leadingBits hp
  | v6 bits => exact share_leadingBits hp

/-- `Contains` of an IPv4 address looks at the IPv4 prefixes only. -/
theorem contains_v4_iff (hp : p.bits ≤ p.addr.bitLen) (y : BitVec 32) :
    p.contains (.v4 y) = true ↔ p.addr.is4 = true ∧ p.Covers ⟨mapped y⟩ := by
  obtain ⟨addr, n⟩ := p
  cases addr with
  | v4 bits =>
    have hcovers : Prefix.Covers ⟨.v4 bits, n⟩ ⟨mapped y⟩ ↔ (bits ^^^ y) >>> (32 - n) = 0 := by
      refine (share_mapped_iff.trans ⟨?_, fun h => ⟨y, rfl, h⟩⟩).trans (xor_shiftRight_iff hp).symm
      rintro ⟨y', hy, h⟩
      rwa [mapped_inj hy]
    rw [hcovers]
    simp [Prefix.contains, Addr.is4]
  | v6 bits => simp [Prefix.contains, Addr.is4]

/-- `Contains` of an IPv6 address looks at the IPv6 prefixes only. -/
theorem contains_v6_iff (hp : p.bits ≤ p.addr.bitLen) (bits : BitVec 128) :
    p.contains (.v6 bits) = true ↔ p.addr.is4 = false ∧ p.Covers ⟨bits⟩ := by
  obtain ⟨addr, n⟩ := p
  cases addr with
  | v4 bits => simp [Prefix.contains, Addr.is4]
  | v6 addr =>
    have hcovers : Prefix.Covers ⟨.v6 addr, n⟩ ⟨bits⟩ ↔ (addr ^^^ bits) >>> (128 - n) = 0 :=
      (xor_shiftRight_iff hp).symm
    rw [hcovers]
    simp [Prefix.contains, Addr.is4]

/-- An IPv4 range holds mapped addresses only. -/
theorem to4_of_covers (hp : p.addr.is4 = true) (h : p.Covers ip) : ∃ y, ip.to4 = some y := by
  obtain ⟨addr, n⟩ := p
  cases addr with
  | v4 bits =>
    obtain ⟨y, hy, -⟩ := share_mapped_iff.1 h
    exact ⟨y, to4_eq_some_iff.2 hy⟩
  | v6 bits => cases hp

theorem parseBits_decimalText {n maxBits : Nat} (hn : n < 1000) (h : n ≤ maxBits) :
    parseBits maxBits (decimalText n) = some n := by
  obtain ⟨hnumber, hzero⟩ := number_decimalText hn le_rfl
  rw [parseBits, if_neg hzero, hnumber]
  simpa using h

theorem bitLen_le (a : Addr) : a.bitLen ≤ 128 := by cases a <;> simp [Addr.bitLen]

theorem mem_prefixText (hp : p.bits ≤ p.addr.bitLen) {c : Char} (h : c ∈ prefixText p) :
    c ∈ '/' :: addrChars := by
  have hbits := bitLen_le p.addr
  rw [prefixText, List.mem_append, List.mem_cons] at h
  rcases h with h | rfl | h
  · exact List.mem_cons_of_mem _ (mem_addrText h)
  · exact List.mem_cons_self
  · obtain ⟨d, hd, rfl⟩ := mem_decimalText (by omega) h
    exact List.mem_cons_of_mem _ (digitChar_plain d (by omega)).1

/-- The text of a prefix is read as the prefix. -/
theorem parsePrefix_prefixText (hp : p.bits ≤ p.addr.bitLen) : parsePrefix (prefixText p) = some p := by
  have hbits := bitLen_le p.addr
  have hslash : ∀ c ∈ (decimalText p.bits).reverse, decide (c ≠ '/') = true := by
    intro c hc
    obtain ⟨d, hd, rfl⟩ := mem_decimalText (by omega) (List.mem_reverse.1 hc)
    have hchar := (digitChar_plain d (by omega)).1
    exact decide_eq_true fun h => absurd (h ▸ hchar) (by decide)
  have hafter : ((prefixText p).reverse.takeWhile (· ≠ '/')).reverse = decimalText p.bits := by
    rw [prefixText, List.reverse_append, List.reverse_cons, List.append_assoc,
      List.takeWhile_append_of_pos hslash]
    simp
  have hbefore : (prefixText p).take
      ((prefixText p).length - (decimalText p.bits).length - 1) = addrText p.addr :=
    List.take_left' (by simp [prefixText]; omega)
  have hmem : '/' ∈ prefixText p := by simp [prefixText]
  unfold parsePrefix
  dsimp only
  rw [hafter, if_neg (not_not.2 hmem), hbefore, parseAddr_addrText]
  dsimp only
  rw [parseBits_decimalText (by omega) hp]
  rfl

/-- A prefix that is read has no more bits than its address. -/
theorem valid_of_parsePrefix (h : parsePrefix cs = some p) : p.bits ≤ p.addr.bitLen := by
  unfold parsePrefix at h
  dsimp only at h
  split at h
  · cases h
  · split at h
    · rename_i addr haddr
      obtain ⟨n, hn, rfl⟩ := Option.map_eq_some_iff.1 h
      unfold parseBits at hn
      split at hn
      · cases hn
      · simpa using (Option.filter_eq_some_iff.1 hn).2
    · cases h

end Ranges

end IPAddresses
