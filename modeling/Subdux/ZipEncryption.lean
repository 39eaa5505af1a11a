import Subdux.Lib.Loop
import Subdux.Lib.ZipFormat
import Subdux.Lib.Results
/-!
# Detecting an encrypted archive

`web/src/lib/zip-encryption.ts`: `detectZipEncryption` reads the end of an uploaded file and its
central directory, and tells the first entry with WinZip AES encryption.

`detectZipEncryption_iff` says that it ends on every file, when it finds an archive's end record,
and when what it then tells is true.
-/

namespace Subdux
open Zip LittleEndian Results

def eocdSignature : Nat := 0x06054b50
def centralSignature : Nat := 0x02014b50
def aesExtraFieldId : Nat := 0x9901
def aesCompressionMethod : Nat := 99
def zip64Sentinel32 : Nat := 0xffffffff

/-- The end record is 22 bytes and up to 65535 bytes of comment. -/
def maxEocdSearch : Nat := 22 + 65535

structure EncryptedZipEntry where
  localHeaderOffset : Nat
  aesStrength : Nat
deriving DecidableEq, Repr

structure DetectZipEncryptionResult where
  isZip : Bool
  encrypted : Bool
  firstEncryptedEntry : Option EncryptedZipEntry
  cannotVerify : Bool
deriving DecidableEq, Repr

/-- Why a computation on a view stops: the `RangeError` of an access, or a loop that was cut off. -/
inductive ViewError where
  | rangeError
  | unfinished
deriving DecidableEq, Repr

/-- `view.getUint8`, `getUint16` and `getUint32`, little-endian, of `n` bytes. -/
def getUint (view : List UInt8) (offset n : Nat) : Except ViewError Nat :=
  if offset + n ≤ view.length then .ok (readAt view offset n) else .error .rangeError

/-- `file.slice(start, stop)`. -/
def readSlice (file : List UInt8) (start stop : Nat) : List UInt8 := (file.take stop).drop start

/-- The search from `offset - 1` down. -/
def findEocdFrom (view : List UInt8) : Nat → Except ViewError Int
  | 0 => .ok (-1)
  | offset + 1 => do
    if (← getUint view offset 4) = eocdSignature then return offset else findEocdFrom view offset

/-- The last offset a 22-byte record with the signature can start at; -1 where there is none. -/
def findEocdOffset (view : List UInt8) : Except ViewError Int := findEocdFrom view (view.length - 21)

/-- A round of the walk over the extra fields: the next position, or the strength that is told. -/
def extraRound (view : List UInt8) (stop pos : Nat) : Except ViewError (Nat ⊕ Option Nat) :=
  if pos + 4 ≤ stop ∧ pos + 4 ≤ view.length then do
    let headerId ← getUint view pos 2
    let dataSize ← getUint view (pos + 2) 2
    if headerId = aesExtraFieldId then
      if pos + 4 + 5 ≤ view.length then return .inr (some (← getUint view (pos + 4 + 4) 1))
        else return .inr none
    else return .inl (pos + (4 + dataSize))
  else .ok (.inr none)

def parseAesStrengthFromExtra (view : List UInt8) (start length : Nat) : Except ViewError (Option Nat) :=
  Loop.rounds .unfinished (extraRound view (start + length)) (view.length + 1) start

/-- A round of the walk over the central directory: the next position, or the entry that is told. -/
def directoryRound (view : List UInt8) (pos : Nat) : Except ViewError (Nat ⊕ Option EncryptedZipEntry) :=
  if pos + 46 ≤ view.length then do
    if (← getUint view pos 4) ≠ centralSignature then return .inr none
    let gpFlag ← getUint view (pos + 8) 2
    let compressionMethod ← getUint view (pos + 10) 2
    let nameLen ← getUint view (pos + 28) 2
    let extraLen ← getUint view (pos + 30) 2
    let commentLen ← getUint view (pos + 32) 2
    let localHeaderOffset ← getUint view (pos + 42) 4
    let next := pos + (46 + nameLen + extraLen + commentLen)
    if gpFlag &&& 1 = 1 ∧ compressionMethod = aesCompressionMethod then
      match ← parseAesStrengthFromExtra view (pos + 46 + nameLen) extraLen with
      | some aesStrength => return .inr (some ⟨localHeaderOffset, aesStrength⟩)
      | none => return .inl next
    else return .inl next
  else .ok (.inr none)

def walkDirectory (cdView : List UInt8) : Except ViewError (Option EncryptedZipEntry) :=
  Loop.rounds .unfinished (directoryRound cdView) (cdView.length + 1) 0

/-- The body of the `try` block, behind the read of the file's end. -/
def detectFromTail (file tailView : List UInt8) : Except ViewError DetectZipEncryptionResult := do
  let eocdOffset ← findEocdOffset tailView
  if eocdOffset < 0 then return ⟨false, false, none, false⟩
  let totalEntries ← getUint tailView (eocdOffset.toNat + 10) 2
  let cdSize ← getUint tailView (eocdOffset.toNat + 12) 4
  let cdOffset ← getUint tailView (eocdOffset.toNat + 16) 4
  if cdSize = zip64Sentinel32 ∨ cdOffset = zip64Sentinel32 ∨ totalEntries = 0xffff then
    return ⟨true, false, none, true⟩
  if cdSize = 0 ∨ file.length < cdOffset + cdSize then return ⟨true, false, none, true⟩
  match ← walkDirectory (readSlice file cdOffset (cdOffset + cdSize)) with
  | some entry => return ⟨true, true, some entry, false⟩
  | none => return ⟨true, false, none, false⟩

def readTail (file : List UInt8) : List UInt8 := readSlice file (file.length - maxEocdSearch) file.length

def detectZipEncryption (file : List UInt8) : Except ViewError DetectZipEncryptionResult :=
  if file.length < 22 then .ok ⟨false, false, none, false⟩
  else
    match detectFromTail file (readTail file) with
    | .error .rangeError => .ok ⟨false, false, none, true⟩
    | .error .unfinished => .error .unfinished
    | .ok result => .ok result

/-! ## Every loop ends -/

section Ends
variable {view file : List UInt8} {offset n pos stop k : Nat}

theorem getUint_ok (h : offset + n ≤ view.length) :
    getUint view offset n = .ok (readAt view offset n) := if_pos h

/-- What a round of the walk over the extra fields does: no access is out of range. -/
theorem extraRound_eq (h : pos + 4 ≤ stop ∧ pos + 4 ≤ view.length) : extraRound view stop pos =
    .ok (if readAt view pos 2 = aesExtraFieldId then
      .inr (if pos + 9 ≤ view.length then some (readAt view (pos + 8) 1) else none)
    else .inl (pos + (4 + readAt view (pos + 2) 2))) := by
  rw [extraRound, if_pos h, getUint_ok (by omega), getUint_ok (by omega)]
  simp only [bind, Except.bind]
  split
  · split
    · rw [getUint_ok (by omega)]
      rfl
    · rfl
  · rfl

theorem parseAesStrengthFromExtra_ends (view : List UInt8) (start length : Nat) :
    ∃ strength, parseAesStrengthFromExtra view start length = .ok strength := by
  -- every round goes on by four bytes at least
  refine Loop.rounds_ends (fun _ => True) (fun pos => view.length - pos) ?_ ?_ trivial (by omega)
  · intro pos _
    by_cases h : pos + 4 ≤ start + length ∧ pos + 4 ≤ view.length
    · exact ⟨_, extraRound_eq h⟩
    · exact ⟨_, if_neg h⟩
  · intro pos pos' _ hround
    by_cases h : pos + 4 ≤ start + length ∧ pos + 4 ≤ view.length
    · rw [extraRound_eq h] at hround
      split at hround
      · cases hround
      · obtain rfl := Sum.inl.inj (Except.ok.inj hround)
        exact ⟨trivial, by omega⟩
    · rw [extraRound, if_neg h] at hround
      cases hround

/-- The lengths a central header announces, and the position behind its entry. -/
def nextEntry (view : List UInt8) (pos : Nat) : Nat :=
  pos + (46 + readAt view (pos + 28) 2 + readAt view (pos + 30) 2 + readAt view (pos + 32) 2)

/-- The entry that is told of a central header, by the strength its extra fields are found to have. -/
def toldEntry (view : List UInt8) (pos : Nat) (strength : Option Nat) : Option EncryptedZipEntry :=
  if readAt view (pos + 8) 2 &&& 1 = 1 ∧ readAt view (pos + 10) 2 = aesCompressionMethod then
    strength.map fun aesStrength => ⟨readAt view (pos + 42) 4, aesStrength⟩
  else none

/-- What a round of the walk over the directory does, where it meets a central header. -/
theorem directoryRound_eq (hlen : pos + 46 ≤ view.length)
    (hsignature : readAt view pos 4 = centralSignature) {strength : Option Nat}
    (hstrength : parseAesStrengthFromExtra view (pos + 46 + readAt view (pos + 28) 2)
      (readAt view (pos + 30) 2) = .ok strength) :
    directoryRound view pos =
      .ok ((toldEntry view pos strength).elim (.inl (nextEntry view pos)) fun entry =>
        .inr (some entry)) := by
  rw [directoryRound, if_pos hlen, getUint_ok (by omega), getUint_ok (by omega),
    getUint_ok (by omega), getUint_ok (by omega),
    getUint_ok (by omega), getUint_ok (by omega), getUint_ok (by omega)]
  simp only [bind, Except.bind, hsignature, hstrength, ne_eq, not_true_eq_false, if_false]
  by_cases haes : readAt view (pos + 8) 2 &&& 1 = 1 ∧ readAt view (pos + 10) 2 = aesCompressionMethod
  · rw [if_pos haes, toldEntry, if_pos haes]
    cases strength <;> rfl
  · rw [if_neg haes, toldEntry, if_neg haes]
    rfl

theorem directoryRound_stops (hlen : pos + 46 ≤ view.length)
    (hsignature : readAt view pos 4 ≠ centralSignature) :
    directoryRound view pos = .ok (.inr none) := by
  rw [directoryRound, if_pos hlen, getUint_ok (by omega)]
  simp only [bind, Except.bind, hsignature, ne_eq, not_false_eq_true, if_true]
  rfl

theorem walkDirectory_ends (cdView : List UInt8) : ∃ found, walkDirectory cdView = .ok found := by
  refine Loop.rounds_ends (fun _ => True) (fun pos => cdView.length - pos) ?_ ?_ trivial (by omega)
  · intro pos _
    by_cases hlen : pos + 46 ≤ cdView.length
    · by_cases hsignature : readAt cdView pos 4 = centralSignature
      · obtain ⟨strength, hstrength⟩ :=
          parseAesStrengthFromExtra_ends cdView (pos + 46 + readAt cdView (pos + 28) 2)
          (readAt cdView (pos + 30) 2)
        exact ⟨_, directoryRound_eq hlen hsignature hstrength⟩
      · exact ⟨_, directoryRound_stops hlen hsignature⟩
    · exact ⟨_, if_neg hlen⟩
  · intro pos pos' _ hround
    by_cases hlen : pos + 46 ≤ cdView.length
    · by_cases hsignature : readAt cdView pos 4 = centralSignature
      · obtain ⟨strength, hstrength⟩ :=
          parseAesStrengthFromExtra_ends cdView (pos + 46 + readAt cdView (pos + 28) 2)
          (readAt cdView (pos + 30) 2)
        rw [directoryRound_eq hlen hsignature hstrength] at hround
        cases htold : toldEntry cdView pos strength with
        | none =>
          rw [htold] at hround
          obtain rfl := Sum.inl.inj (Except.ok.inj hround)
          refine ⟨trivial, ?_⟩
          rw [nextEntry]
          omega
        | some entry =>
          rw [htold] at hround
          cases hround
      · rw [directoryRound_stops hlen hsignature] at hround
        cases hround
    · rw [directoryRound, if_neg hlen] at hround
      cases hround

/-- The search ends with the last offset that has the signature. -/
theorem findEocdFrom_spec (view : List UInt8) {k : Nat} (hk : k ≤ view.length - 21) :
    ∃ found, findEocdFrom view k = .ok found ∧
      (found = -1 ∨ ∃ offset < k, found = offset ∧ readAt view offset 4 = eocdSignature) ∧
      ∀ offset < k, readAt view offset 4 = eocdSignature → (offset : Int) ≤ found := by
  induction k with
  | zero => exact ⟨-1, rfl, .inl rfl, fun _ h => absurd h (Nat.not_lt_zero _)⟩
  | succ k ih =>
    by_cases hsignature : readAt view k 4 = eocdSignature
    · refine ⟨k, ?_, .inr ⟨k, Nat.lt_succ_self k, rfl, hsignature⟩, fun offset h _ => by omega⟩
      rw [findEocdFrom, getUint_ok (by omega)]
      simp only [bind, Except.bind, hsignature, if_true]
      rfl
    · obtain ⟨found, hfound, hat, hlast⟩ := ih (by omega)
      refine ⟨found, ?_, ?_, ?_⟩
      · rw [findEocdFrom, getUint_ok (by omega)]
        simp only [bind, Except.bind, hsignature, if_false]
        exact hfound
      · exact hat.imp_right fun ⟨offset, hlt, heq, hat⟩ => ⟨offset, by omega, heq, hat⟩
      · intro offset hlt hoffset
        rcases Nat.lt_succ_iff_lt_or_eq.1 hlt with hlt | rfl
        · exact hlast offset hlt hoffset
        · exact absurd hoffset hsignature

theorem detectFromTail_ends (file tailView : List UInt8) :
    ∃ result, detectFromTail file tailView = .ok result := by
  obtain ⟨found, hfound, hat, -⟩ := findEocdFrom_spec tailView (Nat.le_refl _)
  rw [detectFromTail, findEocdOffset, hfound]
  simp only [bind, Except.bind]
  split
  · exact ⟨_, rfl⟩
  · rename_i hpos
    obtain ⟨offset, hlt, rfl, -⟩ := hat.resolve_left (by omega)
    rw [Int.toNat_natCast, getUint_ok (by omega), getUint_ok (by omega), getUint_ok (by omega)]
    simp only
    split
    · exact ⟨_, rfl⟩
    split
    · exact ⟨_, rfl⟩
    obtain ⟨entry, hentry⟩ := walkDirectory_ends (readSlice file (readAt tailView (offset + 16) 4)
      (readAt tailView (offset + 16) 4 + readAt tailView (offset + 12) 4))
    rw [hentry]
    cases entry with
    | none => exact ⟨_, rfl⟩
    | some entry => exact ⟨_, rfl⟩

theorem detectZipEncryption_ends (file : List UInt8) :
    ∃ result, detectZipEncryption file = .ok result := by
  rw [detectZipEncryption]
  by_cases hsize : file.length < 22
  · exact ⟨_, if_pos hsize⟩
  · obtain ⟨result, hresult⟩ := detectFromTail_ends file (readTail file)
    exact ⟨result, by rw [if_neg hsize, hresult]⟩

end Ends

/-! ## What the walks find in an archive -/

def usesAes (e : CentralEntry) : Bool :=
  decide (e.gpFlag.toNat &&& 1 = 1 ∧ e.compressionMethod.toNat = aesCompressionMethod)

/-- The byte where the first AES record should have its strength, `after` following the extra fields. -/
def strengthShown (after : List UInt8) : List ExtraRecord → Option Nat
  | [] => none
  | r :: rest =>
    if r.id.toNat = aesExtraFieldId then (r.data ++ (extraBytes rest ++ after))[4]?.map UInt8.toNat
    else strengthShown after rest

/-- The entry with the strength it shows, `after` following it in the directory. -/
def entryShown (after : List UInt8) (e : CentralEntry) : Option EncryptedZipEntry :=
  if usesAes e then (strengthShown (e.comment ++ after) e.extra).map fun strength =>
    ⟨e.localHeaderOffset.toNat, strength⟩
  else none

/-- The first entry that shows a strength, `tail` following the entries. -/
def firstShown (tail : List UInt8) : List CentralEntry → Option EncryptedZipEntry
  | [] => none
  | e :: rest => (entryShown (directoryBytes rest ++ tail) e).or (firstShown tail rest)

section Walks
variable {before after tail : List UInt8} {r : ExtraRecord} {e : CentralEntry} {stop pos k n : Nat}

theorem readAt_byte (buf : List UInt8) (k : Nat) :
    (if k + 1 ≤ buf.length then some (readAt buf k 1) else none) = buf[k]?.map UInt8.toNat := by
  by_cases hk : k + 1 ≤ buf.length
  · rw [if_pos hk, readAt, List.getElem?_eq_getElem hk, List.drop_eq_getElem_cons hk,
      List.take_succ_cons, List.take_zero]
    rfl
  · rw [if_neg hk, List.getElem?_eq_none (by omega)]
    rfl

theorem readAt_here {buf : List UInt8} (h : n ≤ buf.length) :
    readAt (before ++ (buf ++ after)) before.length n = readAt buf 0 n :=
  readAt_inside (k := 0) (by omega)

/-- A round at an extra record. -/
theorem extraRound_record (before tail : List UInt8) (r : ExtraRecord)
    (hstop : before.length + 4 ≤ stop) :
    extraRound (before ++ (fields [(r.id.toNat, 2), (r.data.length, 2)] ++ tail)) stop before.length =
      .ok (if r.id.toNat = aesExtraFieldId then .inr (tail[4]?.map UInt8.toNat)
        else .inl (before.length + (4 + r.data.length))) := by
  have hlen : (fields [(r.id.toNat, 2), (r.data.length, 2)]).length = 4 := by
    rw [length_fields]
    rfl
  have hid : readAt (before ++ (fields [(r.id.toNat, 2), (r.data.length, 2)] ++ tail)) before.length
      2 = r.id.toNat := by
    rw [readAt_here (by omega)]
    exact readAt_fields 0 rfl rfl r.id.toNat_lt
  have hsize : readAt (before ++ (fields [(r.id.toNat, 2), (r.data.length, 2)] ++ tail))
      (before.length + 2) 2 =
      r.data.length := by
    rw [readAt_inside (by omega)]
    exact readAt_fields 1 rfl rfl r.fits
  have hview : (before ++ (fields [(r.id.toNat, 2), (r.data.length, 2)] ++ tail)).length =
      before.length + (4 + tail.length) := by
    rw [List.length_append, List.length_append, hlen]
  have hstrength :=
    readAt_byte (before ++ (fields [(r.id.toNat, 2), (r.data.length, 2)] ++ tail)) (before.length + 8)
  rw [List.getElem?_append_right (by omega), List.getElem?_append_right (by omega), hlen] at hstrength
  rw [extraRound_eq ⟨hstop, by omega⟩, hid, hsize, show before.length + 9 = before.length + 8 +
    1 from rfl, hstrength,
    show before.length + 8 - before.length - 4 = 4 by omega]

theorem length_le_extraBytes (rs : List ExtraRecord) : rs.length ≤ (extraBytes rs).length := by
  induction rs with
  | nil => exact Nat.le_refl _
  | cons r rest ih =>
    rw [length_extraBytes_cons, List.length_cons]
    omega

/-- The walk over an entry's extra fields tells the strength they show. -/
theorem parseAesStrengthFromExtra_eq (before after : List UInt8) (rs : List ExtraRecord) :
    parseAesStrengthFromExtra (before ++ (extraBytes rs ++ after)) before.length (extraBytes rs).length =
      .ok (strengthShown after rs) := by
  have hfirst : ∀ rs, strengthShown after rs = Loop.firstOf (fun r rest =>
      if r.id.toNat = aesExtraFieldId
        then some ((r.data ++ (extraBytes rest ++ after))[4]?.map UInt8.toNat) else none)
      none rs := by
    intro rs
    induction rs with
    | nil => rfl
    | cons r rest ih =>
      rw [strengthShown, Loop.firstOf]
      split
      · rfl
      · exact ih
  have hrun : Loop.rounds .unfinished
      (extraRound (before ++ (extraBytes rs ++ after)) (before.length + (extraBytes rs).length))
      ((before ++ (extraBytes rs ++ after)).length + 1) (before ++ extraBytes []).length = .ok
        (strengthShown after rs) := by
    rw [hfirst]
    refine Loop.rounds_list (fun passed => (before ++ extraBytes passed).length) _ ?_ ?_ ?_
    · rintro passed r rest rfl
      have hview : before ++ (extraBytes (passed ++ r :: rest) ++ after) =
          (before ++ extraBytes passed) ++ (fields [(r.id.toNat, 2), (r.data.length, 2)] ++
            (r.data ++ (extraBytes rest ++ after))) := by
        rw [extraBytes_append, extraBytes_cons]
        simp only [List.append_assoc]
      have hstop : (before ++ extraBytes passed).length + 4 ≤ before.length +
          (extraBytes (passed ++ r :: rest)).length := by
        rw [extraBytes_append, List.length_append, List.length_append, length_extraBytes_cons]
        omega
      have hnext : (before ++ extraBytes (passed ++ [r])).length =
          (before ++ extraBytes passed).length + (4 + r.data.length) := by
        rw [extraBytes_append, List.length_append, List.length_append, List.length_append,
          length_extraBytes_cons]
        show _ + (_ + (_ + 0)) = _
        omega
      rw [hview, extraRound_record _ _ r hstop, hnext]
      split <;> rfl
    · exact if_neg (by rw [List.length_append]; omega)
    · have hmany := length_le_extraBytes rs
      rw [List.length_append, List.length_append]
      omega
  rwa [show extraBytes [] = [] from rfl, List.append_nil] at hrun

/-- What a reader of a directory finds at an entry. -/
theorem readAt_header (before after : List UInt8) (e : CentralEntry) (hk : k + n ≤ 46) :
    readAt (before ++ (e.bytes ++ after)) (before.length + k) n = readAt e.header k n := by
  rw [CentralEntry.bytes, List.append_assoc, readAt_inside]
  rw [length_header]
  exact hk

/-- A round at an entry. -/
theorem directoryRound_entry (before after : List UInt8) (e : CentralEntry) :
    directoryRound (before ++ (e.bytes ++ after)) before.length =
      .ok ((entryShown after e).elim (.inl (before.length + e.bytes.length)) fun entry =>
        .inr (some entry)) := by
  have hreads := header_reads e
  have hsignature : readAt (before ++ (e.bytes ++ after)) before.length 4 = centralSignature := by
    rw [← Nat.add_zero before.length, readAt_header before after e (by omega), hreads.signature]
    rfl
  have hname := readAt_header (k := 28) (n := 2) before after e (by omega)
  have hextra := readAt_header (k := 30) (n := 2) before after e (by omega)
  have hcomment := readAt_header (k := 32) (n := 2) before after e (by omega)
  rw [hreads.nameLength] at hname
  rw [hreads.extraLength] at hextra
  rw [hreads.commentLength] at hcomment
  have hview : before ++ (e.bytes ++ after) = (before ++ e.header ++ e.name) ++
      (extraBytes e.extra ++ (e.comment ++ after)) := by
    rw [CentralEntry.bytes]
    simp only [List.append_assoc]
  have hstrength : parseAesStrengthFromExtra (before ++ (e.bytes ++ after))
      (before.length + 46 + readAt (before ++ (e.bytes ++ after)) (before.length + 28) 2)
      (readAt (before ++ (e.bytes ++ after)) (before.length + 30) 2) =
        .ok (strengthShown (e.comment ++ after) e.extra) := by
    have hstart : before.length + 46 + e.name.length = (before ++ e.header ++ e.name).length := by
      rw [List.length_append, List.length_append, length_header]
    rw [hname, hextra, hview, hstart, parseAesStrengthFromExtra_eq]
  have hlen : before.length + 46 ≤ (before ++ (e.bytes ++ after)).length := by
    rw [List.length_append, List.length_append, length_entry]
    omega
  rw [directoryRound_eq hlen hsignature hstrength]
  have htold : toldEntry (before ++ (e.bytes ++ after)) before.length
      (strengthShown (e.comment ++ after) e.extra) =
      entryShown after e := by
    rw [toldEntry, readAt_header before after e (by omega), readAt_header before after e (by omega),
      readAt_header before after e (by omega), hreads.gpFlag, hreads.compressionMethod,
        hreads.localHeaderOffset, entryShown,
      usesAes]
    exact if_congr decide_eq_true_iff.symm rfl rfl
  have hnext : nextEntry (before ++ (e.bytes ++ after)) before.length = before.length +
      e.bytes.length := by
    rw [nextEntry, hname, hextra, hcomment, length_entry]
  rw [htold, hnext]

theorem length_le_directoryBytes (es : List CentralEntry) : es.length ≤ (directoryBytes es).length := by
  induction es with
  | nil => exact Nat.le_refl _
  | cons e rest ih =>
    rw [directoryBytes_cons, List.length_append, length_entry, List.length_cons]
    omega

/-- Behind the entries the walk stops: what may stand there is no central header. -/
theorem directoryRound_signature (before : List UInt8) (signature : Option (List UInt8)) :
    directoryRound (before ++ signatureBytes signature) before.length = .ok (.inr none) := by
  by_cases hlen : before.length + 46 ≤ (before ++ signatureBytes signature).length
  · apply directoryRound_stops hlen
    cases signature with
    | none =>
      rw [signatureBytes, List.append_nil] at hlen
      omega
    | some data =>
      have hwidth : (fields [(directorySignature, 4), (data.length, 2)]).length = 6 := by
        rw [length_fields]
        rfl
      have hread : readAt (fields [(directorySignature, 4), (data.length, 2)]) 0 4 =
          directorySignature :=
        readAt_fields 0 rfl rfl (by decide)
      rw [signatureBytes, readAt_here (by omega), hread]
      decide
  · exact if_neg hlen

/-- The walk over a directory tells the first entry that shows a strength. -/
theorem walkDirectory_eq (es : List CentralEntry) (signature : Option (List UInt8)) :
    walkDirectory (directoryBytes es ++ signatureBytes signature) = .ok
    (firstShown (signatureBytes signature) es) := by
  have hfirst : ∀ es, firstShown (signatureBytes signature) es = Loop.firstOf (fun e rest =>
      (entryShown (directoryBytes rest ++ signatureBytes signature) e).map some) none es := by
    intro es
    induction es with
    | nil => rfl
    | cons e rest ih =>
      rw [firstShown, Loop.firstOf, ih]
      cases entryShown (directoryBytes rest ++ signatureBytes signature) e <;> rfl
  rw [hfirst]
  refine Loop.rounds_list (fun passed => (directoryBytes passed).length) _ ?_ ?_ ?_
  · rintro passed e rest rfl
    have hview : directoryBytes (passed ++ e :: rest) ++ signatureBytes signature =
        directoryBytes passed ++ (e.bytes ++ (directoryBytes rest ++ signatureBytes signature)) := by
      rw [directoryBytes_append, directoryBytes_cons]
      simp only [List.append_assoc]
    have hnext : (directoryBytes (passed ++ [e])).length = (directoryBytes passed).length +
        e.bytes.length := by
      rw [directoryBytes_append, directoryBytes_cons, List.length_append, List.length_append]
      rfl
    rw [hview, directoryRound_entry, hnext]
    cases entryShown (directoryBytes rest ++ signatureBytes signature) e <;> rfl
  · exact directoryRound_signature _ _
  · have hmany := length_le_directoryBytes es
    rw [List.length_append]
    omega

end Walks

/-! ## What is there to find -/

/-- The strength of a complete AES record: version, vendor, strength and method. -/
def aesStrength (rs : List ExtraRecord) : Option Nat :=
  (rs.find? fun r => r.id.toNat = aesExtraFieldId && 7 ≤ r.data.length).bind fun r =>
    r.data[4]?.map UInt8.toNat

/-- What is to be told of an encrypted entry with a complete AES record. -/
def encryptedEntry (e : CentralEntry) : Option EncryptedZipEntry :=
  if usesAes e then (aesStrength e.extra).map fun strength => ⟨e.localHeaderOffset.toNat, strength⟩
    else none

def firstEncrypted (es : List CentralEntry) : Option EncryptedZipEntry := es.findSome? encryptedEntry

/-- Up to the first encrypted entry with a complete AES record, every encrypted AES entry shows the
strength of its complete AES record, and none where it has none. -/
def ShowsStrengths (tail : List UInt8) (es : List CentralEntry) : Prop :=
  ∀ before e after, es = before ++ e :: after → (∀ d ∈ before, encryptedEntry d = none) →
    usesAes e = true →
    strengthShown (e.comment ++ (directoryBytes after ++ tail)) e.extra = aesStrength e.extra

section Find
variable {tail : List UInt8} {e : CentralEntry} {es : List CentralEntry} {found : EncryptedZipEntry}

theorem entryShown_offset {after : List UInt8} (h : entryShown after e = some found) :
    found.localHeaderOffset = e.localHeaderOffset.toNat := by
  rw [entryShown] at h
  split at h
  · obtain ⟨_, -, rfl⟩ := Option.map_eq_some_iff.1 h
    rfl
  · cases h

theorem encryptedEntry_offset (h : encryptedEntry e = some found) :
    found.localHeaderOffset = e.localHeaderOffset.toNat := by
  rw [encryptedEntry] at h
  split at h
  · obtain ⟨_, -, rfl⟩ := Option.map_eq_some_iff.1 h
    rfl
  · cases h

theorem firstShown_offset (h : firstShown tail es = some found) :
    ∃ e ∈ es, found.localHeaderOffset = e.localHeaderOffset.toNat := by
  induction es with
  | nil => cases h
  | cons e rest ih =>
    rw [firstShown] at h
    cases hshown : entryShown (directoryBytes rest ++ tail) e with
    | some found' =>
      rw [hshown] at h
      obtain rfl := Option.some.inj h
      exact ⟨e, List.mem_cons_self, entryShown_offset hshown⟩
    | none =>
      rw [hshown] at h
      obtain ⟨d, hd, heq⟩ := ih h
      exact ⟨d, List.mem_cons_of_mem _ hd, heq⟩

theorem firstEncrypted_offset (h : firstEncrypted es = some found) :
    ∃ e ∈ es, found.localHeaderOffset = e.localHeaderOffset.toNat := by
  obtain ⟨e, he, hfound⟩ := List.exists_of_findSome?_eq_some h
  exact ⟨e, he, encryptedEntry_offset hfound⟩

theorem aesStrength_isSome {rs : List ExtraRecord} :
    (aesStrength rs).isSome = true ↔ ∃ r ∈ rs, r.id.toNat = aesExtraFieldId ∧ 7 ≤ r.data.length := by
  rw [aesStrength]
  cases hfind : rs.find? fun r => r.id.toNat = aesExtraFieldId && 7 ≤ r.data.length with
  | none =>
    rw [List.find?_eq_none] at hfind
    simpa using hfind
  | some r =>
    have hr := List.find?_some hfind
    simp only [Bool.and_eq_true, decide_eq_true_eq] at hr
    rw [Option.bind_some, List.getElem?_eq_getElem (show 4 < r.data.length by omega)]
    simp only [Option.map_some, Option.isSome_some, true_iff]
    exact ⟨r, List.mem_of_find?_eq_some hfind, hr⟩

theorem firstEncrypted_isSome : (firstEncrypted es).isSome = true ↔
    ∃ e ∈ es, usesAes e = true ∧ ∃ r ∈ e.extra, r.id.toNat = aesExtraFieldId ∧ 7 ≤ r.data.length := by
  rw [firstEncrypted, List.findSome?_isSome_iff]
  refine exists_congr fun e => and_congr_right fun _ => ?_
  rw [encryptedEntry, ← aesStrength_isSome]
  split
  · rename_i haes
    simp [haes]
  · rename_i haes
    simp [haes]

/-- Complete AES records show their strength. -/
theorem strengthShown_of_complete {after : List UInt8} {rs : List ExtraRecord}
    (h : ∀ r ∈ rs, r.id.toNat = aesExtraFieldId → 7 ≤ r.data.length) :
    strengthShown after rs = aesStrength rs := by
  induction rs with
  | nil => rfl
  | cons r rest ih =>
    rw [strengthShown, aesStrength, List.find?_cons]
    by_cases hid : r.id.toNat = aesExtraFieldId
    · have hlen := h r List.mem_cons_self hid
      simp only [hid, hlen, decide_true, Bool.and_self, if_true]
      rw [List.getElem?_append_left (by omega)]
      rfl
    · simp only [hid, decide_false, Bool.false_and, if_false]
      exact ih fun r hr => h r (List.mem_cons_of_mem _ hr)

theorem showsStrengths_of_complete
    (h : ∀ e ∈ es, usesAes e = true → ∀ r ∈ e.extra, r.id.toNat = aesExtraFieldId → 7 ≤ r.data.length) :
    ShowsStrengths tail es := by
  rintro before e after rfl - haes
  exact strengthShown_of_complete (h e (by simp) haes)

theorem firstEncrypted_cons (e : CentralEntry) (es : List CentralEntry) :
    firstEncrypted (e :: es) = (encryptedEntry e).or (firstEncrypted es) := by
  rw [firstEncrypted, List.findSome?_cons]
  cases encryptedEntry e <;> rfl

theorem showsStrengths_cons : ShowsStrengths tail (e :: es) ↔
    (usesAes e = true →
      strengthShown (e.comment ++ (directoryBytes es ++ tail)) e.extra = aesStrength e.extra) ∧
      (encryptedEntry e = none → ShowsStrengths tail es) := by
  constructor
  · intro h
    refine ⟨h [] e es rfl (by simp), ?_⟩
    rintro hnone before d after rfl hbefore
    exact h (e :: before) d after rfl (List.forall_mem_cons.2 ⟨hnone, hbefore⟩)
  · rintro ⟨hfirst, hrest⟩ (_ | ⟨d, before⟩) e' after heq hbefore
    · obtain ⟨rfl, rfl⟩ := List.cons.inj heq
      exact hfirst
    · obtain ⟨rfl, hes⟩ := List.cons.inj heq
      exact hrest (hbefore e List.mem_cons_self) before e' after hes fun d hd =>
        hbefore d (List.mem_cons_of_mem _ hd)

/-- The walk tells the first encrypted entry exactly when the entries up to it show their strengths. -/
theorem firstShown_eq_iff (hdistinct : (es.map (·.localHeaderOffset)).Nodup) :
    firstShown tail es = firstEncrypted es ↔ ShowsStrengths tail es := by
  induction es with
  | nil =>
    refine ⟨fun _ before e after h => ?_, fun _ => rfl⟩
    cases before <;> cases h
  | cons e rest ih =>
    rw [List.map_cons, List.nodup_cons] at hdistinct
    obtain ⟨hnew, hdistinct⟩ := hdistinct
    -- an entry of the rest is not told under this entry's offset
    have hother : ∀ {found : EncryptedZipEntry},
        (∃ d ∈ rest, found.localHeaderOffset = d.localHeaderOffset.toNat) →
        found.localHeaderOffset ≠ e.localHeaderOffset.toNat := by
      rintro found ⟨d, hd, heq⟩ heq'
      exact hnew (List.mem_map.2 ⟨d, hd, UInt32.toNat_inj.1 (heq.symm.trans heq')⟩)
    rw [showsStrengths_cons, firstShown, firstEncrypted_cons]
    by_cases haes : usesAes e = true
    · rw [entryShown, encryptedEntry, if_pos haes, if_pos haes]
      cases hshown : strengthShown (e.comment ++ (directoryBytes rest ++ tail)) e.extra with
      | none =>
        cases hstrength : aesStrength e.extra with
        | none => simpa [haes] using ih hdistinct
        | some strength =>
          simp only [Option.map_none, Option.map_some, Option.none_or, Option.some_or, reduceCtorEq,
            imp_false, haes,
            not_true_eq_false, false_and, iff_false]
          exact fun h => hother (firstShown_offset h) rfl
      | some shown =>
        cases hstrength : aesStrength e.extra with
        | none =>
          simp only [Option.map_none, Option.map_some, Option.none_or, Option.some_or, reduceCtorEq,
            imp_false, haes,
            not_true_eq_false, false_and, iff_false]
          exact fun h => hother (firstEncrypted_offset h.symm) rfl
        | some strength => simp [haes]
    · rw [entryShown, encryptedEntry, if_neg haes, if_neg haes]
      simpa [haes] using ih hdistinct

end Find

/-! ## The end record -/

/-- No other place the search looks at has the end record's signature. -/
def HasOneEnd (a : Archive) : Prop :=
  ∀ k, 0 < k → k ≤ a.comment.length → readAt a.endRecord k 4 ≠ eocdSignature

/-- The search for the end record finds it. -/
def FindsEnd (a : Archive) : Prop :=
  ∃ front, readTail a.file = front ++ a.endRecord ∧ findEocdOffset (readTail a.file) = .ok front.length

/-- What is told of an archive is true: it is one, it is encrypted exactly when an entry is and has
a complete AES record, and then the first such entry is told with its offset and strength. -/
def Tells (a : Archive) (result : DetectZipEncryptionResult) : Prop :=
  result.isZip = true ∧
  (result.encrypted = true ↔
    ∃ e ∈ a.entries, usesAes e = true ∧ ∃ r ∈ e.extra, r.id.toNat = aesExtraFieldId ∧
      7 ≤ r.data.length) ∧
  (result.encrypted = true → result.firstEncryptedEntry = firstEncrypted a.entries)

section Detect
variable (a : Archive)

/-- The search looks at an end of the file that ends with the end record. -/
theorem readTail_file : ∃ front, readTail a.file = front ++ a.endRecord := by
  have hlen := a.length_file
  have hcomment := a.comment_fits
  have hfile : a.file = (a.contents ++ a.directory) ++ a.endRecord := (List.append_assoc _ _ _).symm
  have hstart : a.file.length - maxEocdSearch ≤ (a.contents ++ a.directory).length := by
    rw [maxEocdSearch, List.length_append]
    omega
  generalize hn : a.file.length - maxEocdSearch = n at hstart
  refine ⟨(a.contents ++ a.directory).drop n, ?_⟩
  rw [readTail, hn, readSlice, List.take_length, hfile, List.drop_append_of_le_length hstart]

/-- The search finds the end record exactly when nothing behind its start has the signature. -/
theorem findEocdOffset_iff {front : List UInt8} :
    findEocdOffset (front ++ a.endRecord) = .ok front.length ↔ HasOneEnd a := by
  have hlen : (front ++ a.endRecord).length - 21 = front.length + a.comment.length + 1 := by
    rw [List.length_append, a.length_endRecord]
    omega
  have hread : ∀ k, readAt (front ++ a.endRecord) (front.length + k) 4 = readAt a.endRecord k 4 :=
    fun k => readAt_back front a.endRecord k 4
  have hhere : readAt (front ++ a.endRecord) front.length 4 = eocdSignature := by
    rw [← Nat.add_zero front.length, hread 0, a.endRecord_reads.signature]
    rfl
  obtain ⟨found, hfound, hat, hlast⟩ := findEocdFrom_spec (front ++ a.endRecord) (Nat.le_refl _)
  rw [findEocdOffset, hfound]
  rw [hlen] at hat hlast
  have hge : (front.length : Int) ≤ found := hlast front.length (by omega) hhere
  constructor
  · rintro h k hpos hk hsignature
    have hfar := hlast (front.length + k) (by omega) (by rw [hread k, hsignature])
    have hnear : found = front.length := Except.ok.inj h
    omega
  · intro hone
    obtain ⟨offset, hlt, rfl, hsignature⟩ := hat.resolve_left (by omega)
    rcases Nat.eq_or_lt_of_le (Int.ofNat_le.1 hge) with heq | hmore
    · rw [heq]
    · obtain ⟨k, rfl⟩ := Nat.exists_eq_add_of_lt hmore
      rw [Nat.add_assoc, hread (k + 1)] at hsignature
      exact absurd hsignature (hone (k + 1) (by omega) (by omega))

/-- From the end record on, the directory's first entry that shows a strength is told. -/
theorem detectZipEncryption_file (h : HasOneEnd a) :
    ∃ result, detectZipEncryption a.file = .ok result ∧ result.isZip = true ∧
      result.encrypted = (firstShown (signatureBytes a.signature) a.entries).isSome ∧
      result.firstEncryptedEntry = firstShown (signatureBytes a.signature) a.entries := by
  have hlen := a.length_file
  have hentries := a.entries_fit
  have hcontents := a.contents_fit
  have hdirectory : a.directory.length < 0xffffffff := a.directory_fits
  obtain ⟨front, htail⟩ := readTail_file a
  have hreads := a.endRecord_reads
  have hread : ∀ k n, k + n ≤ 22 → getUint (front ++ a.endRecord) (front.length + k) n = .ok
      (readAt a.endRecord k n) := by
    intro k n hk
    rw [getUint_ok, readAt_back]
    rw [List.length_append, a.length_endRecord]
    omega
  have hslice : readSlice a.file a.contents.length
      (a.contents.length + a.directory.length) = a.directory := by
    rw [readSlice, ← List.length_append, Archive.file, ← List.append_assoc, List.take_left,
      List.drop_left]
  have hwalk : walkDirectory a.directory = .ok
      (firstShown (signatureBytes a.signature) a.entries) := walkDirectory_eq _ _
  rw [detectZipEncryption, if_neg (by omega), htail, detectFromTail, (findEocdOffset_iff a).2 h]
  simp only [bind, Except.bind]
  rw [if_neg (by omega), Int.toNat_natCast, hread 10 2 (by omega), hread 12 4 (by omega),
    hread 16 4 (by omega), hreads.count,
    hreads.size, hreads.offset]
  simp only
  have hsmall : ¬ (a.directory.length = zip64Sentinel32 ∨ a.contents.length = zip64Sentinel32 ∨
      a.entries.length = 0xffff) := by
    rw [zip64Sentinel32]
    omega
  rw [if_neg hsmall]
  by_cases hempty : a.directory.length = 0
  · rw [if_pos (.inl hempty)]
    have hnone : a.entries = [] := by
      have hmany := length_le_directoryBytes a.entries
      rw [Archive.directory, List.length_append] at hempty
      exact List.eq_nil_of_length_eq_zero (by omega)
    refine ⟨_, rfl, rfl, ?_, ?_⟩ <;> rw [hnone] <;> rfl
  · rw [if_neg (by omega), hslice, hwalk]
    cases firstShown (signatureBytes a.signature) a.entries with
    | none => exact ⟨_, rfl, rfl, rfl, rfl⟩
    | some entry => exact ⟨_, rfl, rfl, rfl, rfl⟩

theorem findsEnd_iff : FindsEnd a ↔ HasOneEnd a := by
  constructor
  · rintro ⟨front, htail, hfound⟩
    rw [htail] at hfound
    exact (findEocdOffset_iff a).1 hfound
  · intro h
    obtain ⟨front, htail⟩ := readTail_file a
    exact ⟨front, htail, by rw [htail, (findEocdOffset_iff a).2 h]⟩

theorem tells_iff {a : Archive} {result : DetectZipEncryptionResult} {shown : Option EncryptedZipEntry}
    (hzip : result.isZip = true) (hencrypted : result.encrypted = shown.isSome)
    (hfirst : result.firstEncryptedEntry = shown) :
    Tells a result ↔ shown = firstEncrypted a.entries := by
  rw [Tells, ← firstEncrypted_isSome, hencrypted, hfirst]
  constructor
  · rintro ⟨-, hsome, heq⟩
    cases shown with
    | none =>
      cases hfound : firstEncrypted a.entries with
      | none => rfl
      | some found =>
        rw [hfound] at hsome
        exact absurd (hsome.2 rfl) (by decide)
    | some entry => exact heq rfl
  · rintro rfl
    exact ⟨hzip, Iff.rfl, fun _ => rfl⟩

end Detect

/-- The detection of an encrypted archive. It ends on every file. The search finds an archive's end
record exactly when nothing else it looks at has the record's signature, and then what is told of
the archive is true exactly when the encrypted AES entries, up to the first with a complete AES
record, show the strengths they have. -/
theorem detectZipEncryption_iff (file : List UInt8) (a : Archive) :
    (∃ result, detectZipEncryption file = .ok result) ∧ (FindsEnd a ↔ HasOneEnd a) ∧
      (HasOneEnd a → ((∃ result, detectZipEncryption a.file = .ok result ∧ Tells a result) ↔
        ShowsStrengths (signatureBytes a.signature) a.entries)) := by
  refine ⟨detectZipEncryption_ends file, findsEnd_iff a, fun hone => ?_⟩
  obtain ⟨result, hresult, hzip, hencrypted, hfirst⟩ := detectZipEncryption_file a hone
  rw [← firstShown_eq_iff a.distinct, ← tells_iff hzip hencrypted hfirst]
  constructor
  · rintro ⟨result', hresult', htells⟩
    obtain rfl := Except.ok.inj (hresult.symm.trans hresult')
    exact htells
  · intro htells
    exact ⟨result, hresult, htells⟩

/-- An AES record: complete, of strength 1, or without data. -/
def aesRecord (complete : Bool) : ExtraRecord where
  id := 0x9901
  data := if complete then [2, 0, 0x41, 0x45, 1, 0, 0] else []
  fits := by cases complete <;> decide

/-- The encrypted entry `d`, with the comment `hello`. -/
def aesEntry (complete : Bool) : CentralEntry where
  versionMadeBy := 51
  versionNeeded := 51
  gpFlag := 1
  compressionMethod := 99
  modTime := 0
  modDate := 0
  crc32 := 0
  compressedSize := 21
  uncompressedSize := 1
  diskStart := 0
  internalAttributes := 0
  externalAttributes := 0
  localHeaderOffset := 0
  name := [0x64]
  extra := [aesRecord complete]
  comment := [0x68, 0x65, 0x6c, 0x6c, 0x6f]
  name_fits := by decide
  extra_fits := by cases complete <;> decide
  comment_fits := by decide

/-- An archive of that entry with 21 bytes of data. -/
def aesArchive (complete : Bool) (comment : List UInt8) (h : comment.length < 65536) : Archive where
  contents :=
    fields [(localHeaderSignature, 4), (51, 2), (1, 2), (99, 2), (0, 2), (0, 2), (0, 4), (21, 4),
      (1, 4), (1, 2),
    ((aesRecord complete).bytes.length, 2)] ++ [0x64] ++ (aesRecord complete).bytes ++
      List.replicate 21 0
  entries := [aesEntry complete]
  signature := none
  comment := comment
  locals := by cases complete <;> decide
  distinct := List.nodup_singleton _
  entries_fit := by
    rw [List.length_singleton]
    decide
  contents_fit := by cases complete <;> decide
  directory_fits := by cases complete <;> decide
  comment_fits := h

/-- Without a comment the archive is told to be encrypted. -/
theorem detectZipEncryption_sample :
    ∃ result, detectZipEncryption (aesArchive true [] (by decide)).file = .ok result ∧
      Tells (aesArchive true [] (by decide)) result := by
  have hone : HasOneEnd (aesArchive true [] (by decide)) :=
    fun k hpos hk => absurd hk (Nat.not_le.2 hpos)
  refine ((detectZipEncryption_iff [] (aesArchive true [] (by decide))).2.2 hone).2
    (showsStrengths_of_complete ?_)
  intro e he _ r hr _
  obtain rfl := List.mem_singleton.1 he
  obtain rfl := List.mem_singleton.1 hr
  decide

/-- A comment that holds an end record of an empty archive hides the entry; an AES record without
data is told with a byte of the entry's comment for its strength. -/
theorem detectZipEncryption_misled :
    (∃ result, detectZipEncryption
      (aesArchive true (endRecordOf 0 0 0 []) (by decide)).file = .ok result ∧
      ¬ Tells (aesArchive true (endRecordOf 0 0 0 []) (by decide)) result) ∧
    ∃ result, detectZipEncryption (aesArchive false [] (by decide)).file = .ok result ∧
      ¬ Tells (aesArchive false [] (by decide)) result := by
  have hhidden : detectZipEncryption (aesArchive true (endRecordOf 0 0 0 []) (by decide)).file =
      .ok ⟨true, false, none, true⟩ := by
    decide +kernel
  have hshort : detectZipEncryption (aesArchive false [] (by decide)).file = .ok
      ⟨true, true, some ⟨0, 0x6f⟩, false⟩ := by
    decide +kernel
  refine ⟨⟨_, hhidden, ?_⟩, ⟨_, hshort, ?_⟩⟩
  · rintro ⟨-, hencrypted, -⟩
    have hentry : ∃ e ∈ (aesArchive true (endRecordOf 0 0 0 []) (by decide)).entries, usesAes e = true ∧
        ∃ r ∈ e.extra, r.id.toNat = aesExtraFieldId ∧ 7 ≤ r.data.length :=
      ⟨aesEntry true, List.mem_singleton.2 rfl, by decide, aesRecord true, List.mem_singleton.2 rfl,
        by decide⟩
    exact absurd (hencrypted.2 hentry) (by decide)
  · rintro ⟨-, hencrypted, -⟩
    obtain ⟨e, he, -, r, hr, -, hlen⟩ := hencrypted.1 rfl
    obtain rfl := List.mem_singleton.1 he
    obtain rfl := List.mem_singleton.1 hr
    exact absurd hlen (by decide)

end Subdux
