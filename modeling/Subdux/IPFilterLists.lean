import Mathlib.Data.String.Basic
import Subdux.Lib.AddressText
import Subdux.Lib.SortedKeys
import Subdux.Outbound
/-!
# The list of IP filters

`normalizeSSRFIPFilterList`, `parseSSRFIPFilterList` and `ipMatchesSSRFFilter` of
`internal/service/ssrf_settings.go`. The stored list is its own normal form, and
`ipMatches_iff` says which addresses it matches: those of an IPv4 entry, and those of an
IPv6 entry that are not mapped. `ip_filter_iff` compares that with what the entries denote.
-/

namespace Subdux
open GoStrings Results IPAddresses SortedKeys

/-! ## The code -/

inductive IPFilterListError where
  | invalid | tooLong
  deriving DecidableEq

def IPFilterListError.text : IPFilterListError → String
  | .invalid => "invalid ssrf ip filter list"
  | .tooLong => "ssrf ip filter list is too long"

def maxSSRFIPFilterListLength : Nat := 500

def ssrfListSeparator (r : Char) : Bool := r = '\n' || r = ',' || r = ';'

/-- `strings.FieldsFunc`. -/
def fieldsFunc (separator : Char → Bool) (s : String) : List String :=
  ((s.toList.splitOnP separator).filter (· ≠ [])).map String.ofList

/-- `Prefix.String`. -/
def prefixString (p : Prefix) : String := String.ofList (prefixText p)

/-- The prefix of an entry as it is written: an address alone is a whole one, without its zone. -/
def readIPFilter (value : String) : Option Prefix :=
  if '/' ∈ value.toList then parsePrefix value.toList
  else (parseAddr value.toList).map fun addr => ⟨addr.1, addr.1.bitLen⟩

/-- The prefix that the loop takes for an entry. -/
def parseIPFilter (value : String) : Option Prefix :=
  if '/' ∈ value.toList then (readIPFilter value).map Prefix.masked else readIPFilter value

/-- The loop over the parts. The keys of `seen` are the texts of `prefixes`. -/
def parseIPFilterParts : List String → List Prefix → Except IPFilterListError (List Prefix)
  | [], prefixes => .ok prefixes
  | part :: parts, prefixes =>
    let value := trimSpace part
    if value = "" then parseIPFilterParts parts prefixes
    else
      match parseIPFilter value with
      | none => .error .invalid
      | some p =>
        parseIPFilterParts parts
          (if prefixString p ∈ prefixes.map prefixString then prefixes else prefixes ++ [p])

def parseSSRFIPFilterList (raw : String) : Except IPFilterListError (List Prefix) :=
  (parseIPFilterParts (fieldsFunc ssrfListSeparator raw) []).map (sortByKey prefixString)

def ssrfIPFilterPrefixString (p : Prefix) : String :=
  if (p.addr.is4 && p.bits = 32) || (!p.addr.is4 && p.bits = 128)
    then String.ofList (addrText p.addr) else prefixString p

def normalizeSSRFIPFilterList (raw : String) : Except IPFilterListError String :=
  match parseSSRFIPFilterList raw with
  | .error err => .error err
  | .ok prefixes =>
    if prefixes.length = 0 then .ok ""
    else
      let normalized := "\n".intercalate (prefixes.map ssrfIPFilterPrefixString)
      if maxSSRFIPFilterListLength < normalized.utf8ByteSize then .error .tooLong else .ok normalized

/-- The filters that `loadSSRFProtectionConfig` takes from the stored value. -/
def loadIPFilters (stored : String) : List Prefix :=
  match parseSSRFIPFilterList (trimSpace stored) with
  | .ok prefixes => prefixes
  | .error _ => defaultSSRFProtectionConfig.ipFilters

/-- A `net.IP` of four or of sixteen bytes. -/
inductive NetIP where
  | bytes4 (bits : BitVec 32)
  | bytes16 (bits : BitVec 128)

/-- `To16`. -/
def NetIP.to16 : NetIP → IP
  | .bytes4 bits => ⟨mapped bits⟩
  | .bytes16 bits => ⟨bits⟩

example : (normalizeSSRFIPFilterList " 10.0.0.2 ;10.1.2.3/8,, 10.0.0.2/32\n::FFFF:a00:1").toOption =
      some "10.0.0.0/8\n10.0.0.2\n::ffff:10.0.0.1" ∧
    (normalizeSSRFIPFilterList "10.0.0.256").toOption = none := by decide +kernel

/-! ## What a list says -/

/-- The entries of a list. -/
def listEntries (raw : String) : List String :=
  ((fieldsFunc ssrfListSeparator raw).map trimSpace).filter (· ≠ "")

/-- An entry of the family denotes a range with the address. -/
def ListedBy (is4 : Bool) (raw : String) (ip : IP) : Prop :=
  ∃ value ∈ listEntries raw, ∃ p, readIPFilter value = some p ∧ p.addr.is4 = is4 ∧ p.Covers ip

/-- An entry denotes a range with the address. -/
def Listed (raw : String) (ip : IP) : Prop :=
  ∃ value ∈ listEntries raw, ∃ p, readIPFilter value = some p ∧ p.Covers ip

/-! ## Entries -/

/-- What the loop keeps: no more bits than the address has, and zeros behind them. -/
structure NormalPrefix (p : Prefix) : Prop where
  valid : p.bits ≤ p.addr.bitLen
  masked : p.masked = p

section Entries
variable {value : String} {p q : Prefix} {c : Char}

theorem valid_of_readIPFilter (h : readIPFilter value = some p) : p.bits ≤ p.addr.bitLen := by
  unfold readIPFilter at h
  split at h
  · exact valid_of_parsePrefix h
  · obtain ⟨addr, -, rfl⟩ := Option.map_eq_some_iff.1 h
    exact le_rfl

/-- Masking changes no address that stands alone. -/
theorem parseIPFilter_eq (value : String) :
    parseIPFilter value = (readIPFilter value).map Prefix.masked := by
  unfold parseIPFilter
  split
  · rfl
  · rename_i hslash
    rw [readIPFilter, if_neg hslash, Option.map_map]
    apply Option.map_congr
    intro addr _
    exact (masked_of_full rfl).symm

theorem parseIPFilter_normal (h : parseIPFilter value = some p) : NormalPrefix p := by
  rw [parseIPFilter_eq] at h
  obtain ⟨p', hp', rfl⟩ := Option.map_eq_some_iff.1 h
  exact ⟨masked_valid (valid_of_readIPFilter hp'), masked_masked p'⟩

theorem prefixString_inj (hp : NormalPrefix p) (hq : NormalPrefix q)
    (h : prefixString p = prefixString q) : p = q := by
  have htext := congrArg (fun s : String => parsePrefix s.toList) h
  simp only [prefixString, String.toList_ofList, parsePrefix_prefixText hp.valid,
    parsePrefix_prefixText hq.valid] at htext
  exact Option.some.inj htext

/-- The text of a filter is its address, when that is whole. -/
theorem ssrfIPFilterPrefixString_eq (p : Prefix) : ssrfIPFilterPrefixString p =
    if p.bits = p.addr.bitLen then String.ofList (addrText p.addr) else prefixString p := by
  have hfull : ((p.addr.is4 && p.bits = 32) || (!p.addr.is4 && p.bits = 128)) = true ↔
      p.bits = p.addr.bitLen := by
    cases p.addr <;> simp [Addr.is4, Addr.bitLen]
  exact if_congr hfull rfl rfl

/-- The text of a filter is read as the filter. -/
theorem parseIPFilter_text (hp : NormalPrefix p) :
    parseIPFilter (ssrfIPFilterPrefixString p) = some p := by
  rw [parseIPFilter_eq, ssrfIPFilterPrefixString_eq, readIPFilter]
  by_cases hfull : p.bits = p.addr.bitLen
  · have hslash : '/' ∉ addrText p.addr := fun h => absurd (mem_addrText h) (by decide)
    rw [if_pos hfull, String.toList_ofList, if_neg hslash, parseAddr_addrText, Option.map_some,
      Option.map_some, ← hfull]
    exact congrArg some hp.masked
  · have hslash : '/' ∈ prefixText p := by simp [prefixText]
    rw [if_neg hfull, prefixString, String.toList_ofList, if_pos hslash,
      parsePrefix_prefixText hp.valid, Option.map_some, hp.masked]

theorem mem_ssrfIPFilterPrefixString (hp : NormalPrefix p)
    (h : c ∈ (ssrfIPFilterPrefixString p).toList) : c ∈ '/' :: addrChars := by
  rw [ssrfIPFilterPrefixString_eq] at h
  split at h
  · exact List.mem_cons_of_mem _ (mem_addrText (by simpa using h))
  · exact mem_prefixText hp.valid (by simpa [prefixString] using h)

/-- What stands in the text of a filter neither is white space nor separates. -/
theorem entryChar_plain (h : c ∈ '/' :: addrChars) :
    isSpace c = false ∧ ssrfListSeparator c = false := by
  have hall : (('/' :: addrChars).all fun c => isSpace c == false && ssrfListSeparator c == false) =
      true := by decide
  simpa using List.all_eq_true.1 hall c h

theorem ssrfIPFilterPrefixString_ne_empty (hp : NormalPrefix p) : ssrfIPFilterPrefixString p ≠ "" := by
  intro h
  have hread := parseIPFilter_text hp
  rw [h] at hread
  cases hread

end Entries

/-! ## Lists of entries -/

section Lists
variable {parts : List (List Char)} {values : List String} {qs kept prefixes : List Prefix}
  {raw stored : String}

theorem splitOnP_joined {separator : Char → Bool} {sep : Char} (hsep : separator sep = true)
    (hparts : ∀ p ∈ parts, ∀ c ∈ p, separator c = false) (hne : parts ≠ []) :
    (joined sep parts).splitOnP separator = parts := by
  induction parts with
  | nil => exact absurd rfl hne
  | cons p parts ih =>
    have hp := hparts p List.mem_cons_self
    cases parts with
    | nil =>
      have hjoined : joined sep [p] = p := by simp [joined]
      rw [hjoined, List.splitOnP_eq_singleton hp]
    | cons q parts =>
      rw [joined_cons_cons, List.splitOnP_append_cons_of_forall_mem hp sep hsep,
        ih (fun r hr => hparts r (List.mem_cons_of_mem p hr)) (List.cons_ne_nil q parts)]

/-- Words joined by anything are trimmed. -/
theorem isTrimmed_joined {sep : Char} (hparts : ∀ p ∈ parts, p ≠ [] ∧ ∀ c ∈ p, isSpace c = false) :
    IsTrimmed (joined sep parts) := by
  induction parts with
  | nil => constructor <;> rintro c ⟨⟩
  | cons p parts ih =>
    obtain ⟨hne, hp⟩ := hparts p List.mem_cons_self
    have hhead : ∀ tail, ∀ c ∈ (p ++ tail).head?, isSpace c = false := by
      intro tail c hc
      rw [List.head?_append_of_ne_nil p hne] at hc
      exact hp c (List.mem_of_mem_head? hc)
    cases parts with
    | nil =>
      have hjoined : joined sep [p] = p := by simp [joined]
      rw [hjoined]
      exact ⟨List.append_nil p ▸ hhead [], fun c hc => hp c (List.mem_of_mem_getLast? hc)⟩
    | cons q parts =>
      have ih := ih fun r hr => hparts r (List.mem_cons_of_mem p hr)
      obtain ⟨c, cs, hcs⟩ :=
        List.exists_cons_of_ne_nil (hparts q (List.mem_cons_of_mem p List.mem_cons_self)).1
      have hrest : joined sep (q :: parts) ≠ [] := by
        cases parts with
        | nil => simp [joined, hcs]
        | cons r parts => simp [joined_cons_cons, hcs]
      rw [joined_cons_cons]
      refine ⟨hhead _, fun c hc => ih.last c ?_⟩
      rwa [List.getLast?_append_of_ne_nil _ (List.cons_ne_nil sep _),
        List.getLast?_cons_of_ne_nil hrest] at hc

theorem toList_join (values : List String) :
    ("\n".intercalate values).toList = joined '\n' (values.map String.toList) :=
  String.toList_intercalate

/-- The fields of a text of plain entries. -/
theorem fieldsFunc_join
    (hvalues : ∀ value ∈ values, value ≠ "" ∧ ∀ c ∈ value.toList, ssrfListSeparator c = false) :
    fieldsFunc ssrfListSeparator ("\n".intercalate values) = values := by
  unfold fieldsFunc
  rw [toList_join]
  cases values with
  | nil => rfl
  | cons value values =>
    rw [splitOnP_joined (by decide) _ (by simp), List.filter_eq_self.2, List.map_map]
    · simp
    · intro p hp
      obtain ⟨v, hv, rfl⟩ := List.mem_map.1 hp
      simpa using (hvalues v hv).1
    · intro p hp
      obtain ⟨v, hv, rfl⟩ := List.mem_map.1 hp
      exact (hvalues v hv).2

/-- The loop reads every entry and keeps the new ones. -/
theorem parseIPFilterParts_iff {parts : List String} : parseIPFilterParts parts kept = .ok prefixes ↔
    ∃ qs : List Prefix, ((parts.map trimSpace).filter (· ≠ "")).map parseIPFilter = qs.map some ∧
      qs.foldl (addNew prefixString) kept = prefixes := by
  induction parts generalizing kept with
  | nil =>
    constructor
    · intro h
      exact ⟨[], rfl, Except.ok.inj h⟩
    · rintro ⟨qs, hqs, rfl⟩
      obtain rfl : qs = [] := by simpa using hqs.symm
      rfl
  | cons part parts ih =>
    rw [parseIPFilterParts, List.map_cons]
    by_cases hempty : trimSpace part = ""
    · rw [if_pos hempty, ih, List.filter_cons_of_neg (by simpa using hempty)]
    · rw [if_neg hempty, List.filter_cons_of_pos (by simpa using hempty), List.map_cons]
      cases hvalue : parseIPFilter (trimSpace part) with
      | none =>
        simp only [reduceCtorEq, false_iff]
        rintro ⟨qs, hqs, -⟩
        cases qs <;> cases hqs
      | some q =>
        dsimp only
        rw [ih]
        constructor
        · rintro ⟨qs, hqs, h⟩
          exact ⟨q :: qs, by rw [hqs, List.map_cons], h⟩
        · rintro ⟨qs, hqs, h⟩
          cases qs with
          | nil => cases hqs
          | cons q' qs =>
            rw [List.map_cons, List.cons.injEq, Option.some.injEq] at hqs
            obtain ⟨rfl, hqs⟩ := hqs
            exact ⟨qs, hqs, h⟩

theorem parseSSRFIPFilterList_iff : parseSSRFIPFilterList raw = .ok prefixes ↔
    ∃ qs : List Prefix, (listEntries raw).map parseIPFilter = qs.map some ∧
    canonical prefixString qs = prefixes := by
  unfold parseSSRFIPFilterList
  constructor
  · intro h
    obtain ⟨kept, hparts, rfl⟩ := map_eq_ok h
    obtain ⟨qs, hqs, rfl⟩ := parseIPFilterParts_iff.1 hparts
    exact ⟨qs, hqs, rfl⟩
  · rintro ⟨qs, hqs, rfl⟩
    rw [parseIPFilterParts_iff.2 ⟨qs, hqs, rfl⟩]
    rfl

/-- The filters of a list are those of its entries. -/
theorem mem_filters_iff (h : parseSSRFIPFilterList raw = .ok prefixes) (p : Prefix) :
    p ∈ prefixes ↔ ∃ value ∈ listEntries raw, parseIPFilter value = some p := by
  obtain ⟨qs, hqs, rfl⟩ := parseSSRFIPFilterList_iff.1 h
  have hmem : ∀ q : Prefix, q ∈ qs ↔ ∃ value ∈ listEntries raw, parseIPFilter value = some q := by
    intro q
    rw [← List.mem_map, hqs, List.mem_map]
    simp
  have hnormal : ∀ q ∈ qs, NormalPrefix q := by
    intro q hq
    obtain ⟨value, -, hvalue⟩ := (hmem q).1 hq
    exact parseIPFilter_normal hvalue
  rw [← hmem p]
  constructor
  · intro hp
    have hkept : p ∈ qs.foldl (addNew prefixString) [] := (List.perm_insertionSort _ _).mem_iff.1 hp
    exact (mem_of_mem_foldl hkept).resolve_left List.not_mem_nil
  · intro hp
    exact (mem_canonical fun q hq hkey => prefixString_inj (hnormal q hq) (hnormal p hp) hkey).2 hp

theorem normal_of_mem_filters (h : parseSSRFIPFilterList raw = .ok prefixes) {p : Prefix}
    (hp : p ∈ prefixes) : NormalPrefix p := by
  obtain ⟨value, -, hvalue⟩ := (mem_filters_iff h p).1 hp
  exact parseIPFilter_normal hvalue

/-- The text that is stored. -/
def filtersText (prefixes : List Prefix) : String :=
  "\n".intercalate (prefixes.map ssrfIPFilterPrefixString)

theorem normalizeSSRFIPFilterList_iff : normalizeSSRFIPFilterList raw = .ok stored ↔
    ∃ prefixes, parseSSRFIPFilterList raw = .ok prefixes ∧ filtersText prefixes = stored ∧
      stored.utf8ByteSize ≤ maxSSRFIPFilterListLength := by
  unfold normalizeSSRFIPFilterList
  cases parseSSRFIPFilterList raw with
  | error err => simp
  | ok prefixes =>
    dsimp only
    cases prefixes with
    | nil =>
      have hempty : filtersText [] = "" := rfl
      simp only [List.length_nil, if_true, Except.ok.injEq, exists_eq_left', hempty]
      constructor
      · rintro rfl
        exact ⟨rfl, Nat.zero_le _⟩
      · exact fun h => h.1
    | cons p prefixes =>
      simp only [List.length_cons, Nat.add_eq_zero_iff, one_ne_zero, and_false, if_false,
        Except.ok.injEq, exists_eq_left']
      change (if _ < (filtersText (p :: prefixes)).utf8ByteSize then _ else _) = _ ↔ _
      split
      · rename_i hlong
        simp only [reduceCtorEq, false_iff, not_and, not_le]
        rintro rfl
        exact hlong
      · rename_i hshort
        rw [Except.ok.injEq]
        constructor
        · rintro rfl
          exact ⟨rfl, not_lt.1 hshort⟩
        · exact fun h => h.1

/-- The stored text lists the filters. -/
theorem parse_filtersText (h : parseSSRFIPFilterList raw = .ok prefixes) :
    trimSpace (filtersText prefixes) = filtersText prefixes ∧
    parseSSRFIPFilterList (filtersText prefixes) = .ok prefixes := by
  have hnormal : ∀ p ∈ prefixes, NormalPrefix p := fun p hp => normal_of_mem_filters h hp
  have hplain : ∀ value ∈ prefixes.map ssrfIPFilterPrefixString,
      value ≠ "" ∧ ∀ c ∈ value.toList, isSpace c = false ∧ ssrfListSeparator c = false := by
    intro value hvalue
    obtain ⟨p, hp, rfl⟩ := List.mem_map.1 hvalue
    exact ⟨ssrfIPFilterPrefixString_ne_empty (hnormal p hp),
      fun c hc => entryChar_plain (mem_ssrfIPFilterPrefixString (hnormal p hp) hc)⟩
  constructor
  · apply IsTrimmed.trimSpace_eq
    rw [filtersText, toList_join]
    apply isTrimmed_joined
    intro cs hcs
    obtain ⟨value, hvalue, rfl⟩ := List.mem_map.1 hcs
    exact ⟨by simpa using (hplain value hvalue).1, fun c hc => ((hplain value hvalue).2 c hc).1⟩
  · have hentries : listEntries (filtersText prefixes) = prefixes.map ssrfIPFilterPrefixString := by
      rw [listEntries, filtersText, fieldsFunc_join fun value hvalue =>
        ⟨(hplain value hvalue).1, fun c hc => ((hplain value hvalue).2 c hc).2⟩]
      have htrimmed : ∀ value ∈ prefixes.map ssrfIPFilterPrefixString, trimSpace value = id value :=
        fun value hvalue => IsTrimmed.trimSpace_eq
          ⟨fun c hc => ((hplain value hvalue).2 c (List.mem_of_mem_head? hc)).1,
          fun c hc => ((hplain value hvalue).2 c (List.mem_of_mem_getLast? hc)).1⟩
      rw [List.map_congr_left htrimmed, List.map_id, List.filter_eq_self]
      exact fun value hvalue => by simpa using (hplain value hvalue).1
    refine parseSSRFIPFilterList_iff.2 ⟨prefixes, ?_, ?_⟩
    · rw [hentries, List.map_map]
      exact List.map_congr_left fun p hp => parseIPFilter_text (hnormal p hp)
    · obtain ⟨qs, -, rfl⟩ := parseSSRFIPFilterList_iff.1 h
      exact canonical_canonical qs

theorem loadIPFilters_filtersText (h : parseSSRFIPFilterList raw = .ok prefixes) :
    loadIPFilters (filtersText prefixes) = prefixes := by
  obtain ⟨htrim, hparse⟩ := parse_filtersText h
  rw [loadIPFilters, htrim, hparse]

end Lists

/-! ## What the stored list matches -/

section Matches
variable {raw stored : String} {prefixes : List Prefix} {ip : IP} {p : Prefix}

/-- A filter of one family matches the addresses of its range that are of that family. -/
theorem contains_netIPToAddr_iff (hp : NormalPrefix p) (ip : IP) :
    p.contains (netIPToAddr ip) = true ↔ p.addr.is4 = ip.to4.isSome ∧ p.Covers ip := by
  unfold netIPToAddr
  cases hmapped : ip.to4 with
  | some ip4 =>
    have hip : ip = ⟨mapped ip4⟩ := congrArg IP.mk (to4_eq_some_iff.1 hmapped)
    rw [hip]
    exact contains_v4_iff hp.valid ip4
  | none => exact contains_v6_iff hp.valid ip.bits

theorem listed_iff : Listed raw ip ↔ ListedBy true raw ip ∨ ListedBy false raw ip := by
  constructor
  · rintro ⟨value, hvalue, p, hread, hcovers⟩
    cases hfamily : p.addr.is4 with
    | true => exact .inl ⟨value, hvalue, p, hread, hfamily, hcovers⟩
    | false => exact .inr ⟨value, hvalue, p, hread, hfamily, hcovers⟩
  · rintro (⟨value, hvalue, p, hread, -, hcovers⟩ | ⟨value, hvalue, p, hread, -, hcovers⟩)
    all_goals exact ⟨value, hvalue, p, hread, hcovers⟩

/-- An address in the range of an IPv4 entry is mapped. -/
theorem isSome_of_listedBy (h : ListedBy true raw ip) : ip.to4.isSome = true := by
  obtain ⟨value, -, p, -, hfamily, hcovers⟩ := h
  obtain ⟨ip4, hip4⟩ := to4_of_covers hfamily hcovers
  rw [hip4]
  rfl

/-- The filters match the addresses that an entry of their own family lists. -/
theorem ipMatches_iff (h : parseSSRFIPFilterList raw = .ok prefixes) (ip : IP) :
    ipMatchesSSRFFilter ip prefixes = true ↔ ListedBy ip.to4.isSome raw ip := by
  rw [ipMatchesSSRFFilter, List.any_eq_true]
  constructor
  · rintro ⟨p, hp, hcontains⟩
    obtain ⟨hfamily, hcovers⟩ := (contains_netIPToAddr_iff (normal_of_mem_filters h hp) ip).1 hcontains
    obtain ⟨value, hvalue, hparse⟩ := (mem_filters_iff h p).1 hp
    rw [parseIPFilter_eq] at hparse
    obtain ⟨q, hread, rfl⟩ := Option.map_eq_some_iff.1 hparse
    exact ⟨value, hvalue, q, hread, by rw [← hfamily, masked_addr_is4],
      (covers_masked (valid_of_readIPFilter hread)).1 hcovers⟩
  · rintro ⟨value, hvalue, q, hread, hfamily, hcovers⟩
    have hparse : parseIPFilter value = some q.masked := by rw [parseIPFilter_eq, hread, Option.map_some]
    have hmem := (mem_filters_iff h q.masked).2 ⟨value, hvalue, hparse⟩
    refine ⟨q.masked, hmem, (contains_netIPToAddr_iff (parseIPFilter_normal hparse) ip).2 ⟨?_, ?_⟩⟩
    · rw [masked_addr_is4, hfamily]
    · exact (covers_masked (valid_of_readIPFilter hread)).2 hcovers

/-- A stored list is its own normal form. It matches what its entries denote if and only if no
mapped address is in the range of IPv6 entries only. -/
theorem ip_filter_iff (raw stored : String) (h : normalizeSSRFIPFilterList raw = .ok stored) :
    normalizeSSRFIPFilterList stored = .ok stored ∧
    ∀ ip : NetIP, (ipMatchesSSRFFilter ip.to16 (loadIPFilters stored) = true ↔ Listed raw ip.to16) ↔
      (ip.to16.to4.isSome = true → ListedBy false raw ip.to16 → ListedBy true raw ip.to16) := by
  obtain ⟨prefixes, hparse, rfl, hlen⟩ := normalizeSSRFIPFilterList_iff.1 h
  refine ⟨normalizeSSRFIPFilterList_iff.2 ⟨prefixes, (parse_filtersText hparse).2, rfl, hlen⟩,
    fun ip => ?_⟩
  rw [loadIPFilters_filtersText hparse, ipMatches_iff hparse, listed_iff]
  cases hmapped : ip.to16.to4.isSome with
  | true =>
    exact ⟨fun hmatches _ h6 => hmatches.2 (.inr h6), fun hcond =>
      ⟨.inl, fun hlisted => hlisted.elim id (hcond rfl)⟩⟩
  | false =>
    have hnot4 : ¬ ListedBy true raw ip.to16 := by
      intro h4
      rw [isSome_of_listedBy h4] at hmapped
      cases hmapped
    exact ⟨fun _ h => absurd h Bool.false_ne_true, fun _ =>
      ⟨.inr, fun hlisted => hlisted.resolve_left hnot4⟩⟩

end Matches

/-! ### A mapped entry -/

/-- `10.0.0.1`. -/
def sampleNetIP : NetIP := .bytes4 0x0a000001

/-- The entry `::ffff:10.0.0.1` is stored and lists the address, which it never matches. -/
theorem ip_filter_mapped_entry : ¬ ∀ raw stored : String, normalizeSSRFIPFilterList raw = .ok stored →
    normalizeSSRFIPFilterList stored = .ok stored ∧
    ∀ ip : NetIP, ipMatchesSSRFFilter ip.to16 (loadIPFilters stored) = true ↔ Listed raw ip.to16 := by
  intro h
  have hstored : normalizeSSRFIPFilterList "::ffff:10.0.0.1" = .ok "::ffff:10.0.0.1" := by decide +kernel
  have hentry : "::ffff:10.0.0.1" ∈ listEntries "::ffff:10.0.0.1" := by decide +kernel
  have hread : ((readIPFilter "::ffff:10.0.0.1").any (·.contains (.v6 (mapped 0x0a000001)))) =
      true := by decide +kernel
  have hmiss : ipMatchesSSRFFilter sampleNetIP.to16 (loadIPFilters "::ffff:10.0.0.1") = false := by
    decide +kernel
  obtain ⟨p, hp, hcontains⟩ := (Option.any_eq_true _ _).1 hread
  have hlisted : Listed "::ffff:10.0.0.1" sampleNetIP.to16 :=
    ⟨_, hentry, p, hp, ((contains_v6_iff (valid_of_readIPFilter hp) _).1 hcontains).2⟩
  have hmatches := ((h _ _ hstored).2 sampleNetIP).2 hlisted
  rw [hmiss] at hmatches
  cases hmatches

/-- Of a list in both families. -/
theorem ip_filter_iff_sample :
    normalizeSSRFIPFilterList "2001:DB8::1, 10.1.2.3/8" = .ok "10.0.0.0/8\n2001:db8::1" ∧
    normalizeSSRFIPFilterList "10.0.0.0/8\n2001:db8::1" = .ok "10.0.0.0/8\n2001:db8::1" ∧
    ∀ ip : NetIP, (ipMatchesSSRFFilter ip.to16 (loadIPFilters "10.0.0.0/8\n2001:db8::1") = true ↔
        Listed "2001:DB8::1, 10.1.2.3/8" ip.to16) ↔
      (ip.to16.to4.isSome = true → ListedBy false "2001:DB8::1, 10.1.2.3/8" ip.to16 →
        ListedBy true "2001:DB8::1, 10.1.2.3/8" ip.to16) :=
  have h : normalizeSSRFIPFilterList "2001:DB8::1, 10.1.2.3/8" = .ok "10.0.0.0/8\n2001:db8::1" := by
    decide +kernel
  ⟨h, ip_filter_iff _ _ h⟩

end Subdux
