import Subdux.Lib.GoStrings
import Subdux.Lib.Paths
import Subdux.Lib.Results
/-!
# Sanitised icon files

`service.SanitizeIconFile`: an icon is read up to a limit, recognised by its
signature, decoded and encoded again; the extension has to fit the format. The
image decoders are a parameter (`ImageCodec`).
-/

namespace Subdux

open GoStrings GoPath Results

/-- What a reader delivers: its bytes, and the error it ends with instead of an end of file. -/
structure Source (ε : Type) where
  data : List UInt8
  failure : Option ε

/-- `io.ReadAll(io.LimitReader(source, n))`, with the number of bytes read from the source. -/
def Source.readAllLimited {ε : Type} (source : Source ε) (n : Nat) : Except ε (List UInt8) × Nat :=
  if source.data.length < n then
    match source.failure with
    | some err => (.error err, source.data.length)
    | none => (.ok source.data, source.data.length)
  else (.ok (source.data.take n), n)

/-- The image packages: a decoder gives the image's size and its new encoding, if it has one. -/
structure ImageCodec where
  png : List UInt8 → Option ((Int × Int) × Option (List UInt8))
  jpeg : List UInt8 → Option (Option (List UInt8))

inductive IconError where
  | unsupportedType
  | sizeLimit
  | contentMismatch
  | invalidICO
  | read
  | sanitize
deriving DecidableEq, Repr

def IconError.text : IconError → String
  | .unsupportedType => "only PNG, JPG, and ICO images are supported"
  | .sizeLimit => "file size exceeds limit"
  | .contentMismatch => "icon file content does not match file extension"
  | .invalidICO => "ICO file must contain at least one valid PNG image"
  | .read => "failed to read file"
  | .sanitize => "failed to sanitize icon"

inductive IconFormat where
  | png
  | jpg
  | ico
deriving DecidableEq, Repr

def isIconExtension (ext : String) : Bool := ext ∈ [".png", ".jpg", ".jpeg", ".ico"]

def normalizeIconExtension (filename : String) : String :=
  let extension := toLower (ext filename)
  if isIconExtension extension then extension else ""

def hasPNGSignature (buf : List UInt8) : Bool :=
  [0x89, 0x50, 0x4E, 0x47, 0x0D, 0x0A, 0x1A, 0x0A].isPrefixOf buf

def hasJPEGSignature (buf : List UInt8) : Bool := [0xFF, 0xD8, 0xFF].isPrefixOf buf

def hasICOSignature (buf : List UInt8) : Bool :=
  6 ≤ buf.length && [0x00, 0x00, 0x01, 0x00].isPrefixOf buf

def iconExtensionMatchesFormat (extension : String) : IconFormat → Bool
  | .png => extension = ".png"
  | .jpg => extension = ".jpg" || extension = ".jpeg"
  | .ico => extension = ".ico"

/-- The little-endian number in the `n` bytes from `offset` on. -/
def littleEndian (buf : List UInt8) (offset n : Nat) : Nat :=
  ((buf.drop offset).take n).foldr (fun b acc => b.toNat + 256 * acc) 0

/-- A number as `n` little-endian bytes. -/
def putLittleEndian (value : Nat) : Nat → List UInt8
  | 0 => []
  | n + 1 => UInt8.ofNat (value % 256) :: putLittleEndian (value / 256) n

structure IcoEntry where
  width : UInt8
  height : UInt8
  data : List UInt8

def icoDimensionByte (size : Int) : UInt8 := if 256 ≤ size then 0 else UInt8.ofNat size.toNat

/-- The `i`th entry of an icon directory, if it holds a PNG that decodes. -/
def icoEntryAt (images : ImageCodec) (buf : List UInt8) (dirLen i : Nat) : Option IcoEntry :=
  let entryOffset := 6 + i * 16
  let size := littleEndian buf (entryOffset + 8) 4
  let dataOffset := littleEndian buf (entryOffset + 12) 4
  if size = 0 ∨ dataOffset < dirLen ∨ buf.length < dataOffset + size then none
  else
    let data := (buf.drop dataOffset).take size
    if !hasPNGSignature data then none
    else
      match images.png data with
      | some ((width, height), some cleaned) =>
        if width ≤ 0 ∨ height ≤ 0 then none
          else some ⟨icoDimensionByte width, icoDimensionByte height, cleaned⟩
      | _ => none

/-- The directory entries of the new file, the first one's data at `dataOffset`. -/
def icoDirectory : Nat → List IcoEntry → Except IconError (List UInt8)
  | _, [] => .ok []
  | dataOffset, entry :: rest =>
    if 0xFFFFFFFF < entry.data.length ∨ 0xFFFFFFFF < dataOffset then .error .invalidICO
    else
      (icoDirectory (dataOffset + entry.data.length) rest).map fun tail =>
        [entry.width, entry.height, 0, 0] ++ putLittleEndian 1 2 ++ putLittleEndian 32 2 ++
          putLittleEndian entry.data.length 4 ++ putLittleEndian dataOffset 4 ++ tail

def sanitizeICO (images : ImageCodec) (buf : List UInt8) : Except IconError (List UInt8) :=
  let count := littleEndian buf 4 2
  let dirLen := 6 + count * 16
  if count = 0 ∨ buf.length < dirLen then .error .invalidICO
  else
    let validEntries := (List.range count).filterMap (icoEntryAt images buf dirLen)
    if validEntries = [] ∨ 0xFFFF < validEntries.length then .error .invalidICO
    else
      (icoDirectory (6 + validEntries.length * 16) validEntries).map fun directory =>
        putLittleEndian 0 2 ++ putLittleEndian 1 2 ++ putLittleEndian validEntries.length 2 ++
          directory ++
          validEntries.flatMap (·.data)

def sanitizeIconContent (images : ImageCodec) (buf : List UInt8) :
    Except IconError (List UInt8 × IconFormat) :=
  if hasPNGSignature buf then
    match images.png buf with
    | none => .error .unsupportedType
    | some (_, none) => .error .sanitize
    | some (_, some out) => .ok (out, .png)
  else if hasJPEGSignature buf then
    match images.jpeg buf with
    | none => .error .unsupportedType
    | some none => .error .sanitize
    | some (some out) => .ok (out, .jpg)
  else if hasICOSignature buf then (sanitizeICO images buf).map fun out => (out, .ico)
  else .error .unsupportedType

/-- `SanitizeIconFile`: the new bytes and extension, with the number of bytes read. -/
def sanitizeIconFile {ε : Type} (images : ImageCodec) (source : Source ε) (filename : String)
    (maxSize : Nat) :
    Except IconError (List UInt8 × String) × Nat :=
  let extension := normalizeIconExtension filename
  if extension = "" then (.error .unsupportedType, 0)
  else
    let (buf, bytesRead) := source.readAllLimited (maxSize + 1)
    (do
      let buf ← buf.mapError fun _ => IconError.read
      refuseIf (maxSize < buf.length) .sizeLimit
      let (sanitized, format) ← sanitizeIconContent images buf
      refuseIf (!iconExtensionMatchesFormat extension format) .contentMismatch
      refuseIf (maxSize < sanitized.length) .sizeLimit
      return (sanitized, if extension = ".jpeg" then ".jpg" else extension), bytesRead)

/-- What stays below the limit is all the source had. -/
theorem readAllLimited_ok {ε : Type} {source : Source ε} {n : Nat} {buf : List UInt8}
    (h : (source.readAllLimited (n + 1)).1 = .ok buf) (hshort : buf.length ≤ n) :
    buf = source.data ∧ (source.readAllLimited (n + 1)).2 = source.data.length := by
  rw [Source.readAllLimited] at h ⊢
  by_cases hlen : source.data.length < n + 1
  · rw [if_pos hlen] at h ⊢
    cases hfailure : source.failure with
    | some err =>
      rw [hfailure] at h
      cases h
    | none =>
      rw [hfailure] at h
      exact ⟨(Except.ok.inj h).symm, rfl⟩
  · rw [if_neg hlen] at h
    obtain rfl := Except.ok.inj h
    rw [List.length_take] at hshort
    omega

/-- A file that is accepted was read to its end within the limit, and what it became fits the limit
too. -/
theorem sanitizeIconFile_ok {ε : Type} {images : ImageCodec} {source : Source ε} {filename : String}
    {maxSize : Nat} {out : List UInt8 × String}
    (h : (sanitizeIconFile images source filename maxSize).1 = .ok out) :
    (∃ format, sanitizeIconContent images source.data = .ok (out.1, format)) ∧
      (sanitizeIconFile images source filename maxSize).2 = source.data.length ∧
        source.data.length ≤ maxSize ∧
      out.1.length ≤ maxSize := by
  rw [sanitizeIconFile] at h ⊢
  simp only at h ⊢
  split at h
  · cases h
  · rename_i hext
    rw [if_neg hext]
    obtain ⟨buf, hbuf, h⟩ := bind_eq_ok h
    obtain ⟨_, hsize, h⟩ := bind_eq_ok h
    obtain ⟨⟨sanitized, format⟩, hcontent, h⟩ := bind_eq_ok h
    obtain ⟨_, _, h⟩ := bind_eq_ok h
    obtain ⟨_, hout, h⟩ := bind_eq_ok h
    have hread := Nat.not_lt.1 (refuseIf_ok hsize)
    have hlen := Nat.not_lt.1 (refuseIf_ok hout)
    obtain rfl := Except.ok.inj h
    obtain ⟨rfl, hbytes⟩ := readAllLimited_ok (mapError_eq_ok hbuf) hread
    exact ⟨⟨format, hcontent⟩, hbytes, hread, hlen⟩

end Subdux
