import Subdux.Lib.LittleEndian
import Mathlib.Data.List.Nodup
/-!
# The ZIP format

Archives without ZIP64 records: the local headers with their data, the central directory and the
end record with the archive's comment. `Archive.file` writes an archive out; the lemmas beside it
say where a reader finds the numbers of its records.
-/

namespace Zip
open LittleEndian

def centralHeaderSignature : Nat := 0x02014b50
def localHeaderSignature : Nat := 0x04034b50
def directorySignature : Nat := 0x05054b50
def endRecordSignature : Nat := 0x06054b50

/-! ## Extra fields -/

structure ExtraRecord where
  id : UInt16
  data : List UInt8
  fits : data.length < 65536

def ExtraRecord.bytes (r : ExtraRecord) : List UInt8 :=
  fields [(r.id.toNat, 2), (r.data.length, 2)] ++ r.data

def extraBytes (rs : List ExtraRecord) : List UInt8 := rs.flatMap ExtraRecord.bytes

theorem extraBytes_cons (r : ExtraRecord) (rs : List ExtraRecord) :
    extraBytes (r :: rs) = fields [(r.id.toNat, 2), (r.data.length, 2)] ++
    (r.data ++ extraBytes rs) := by
  rw [extraBytes, List.flatMap_cons, ExtraRecord.bytes, List.append_assoc]
  rfl

theorem length_extraBytes_cons (r : ExtraRecord) (rs : List ExtraRecord) :
    (extraBytes (r :: rs)).length = 4 + r.data.length + (extraBytes rs).length := by
  rw [extraBytes_cons, List.length_append, List.length_append, length_fields, ← Nat.add_assoc]
  rfl

theorem extraBytes_append (rs ss : List ExtraRecord) :
    extraBytes (rs ++ ss) = extraBytes rs ++ extraBytes ss :=
  List.flatMap_append

/-! ## Entries -/

/-- An entry of the central directory. -/
structure CentralEntry where
  versionMadeBy : UInt16
  versionNeeded : UInt16
  gpFlag : UInt16
  compressionMethod : UInt16
  modTime : UInt16
  modDate : UInt16
  crc32 : UInt32
  compressedSize : UInt32
  uncompressedSize : UInt32
  diskStart : UInt16
  internalAttributes : UInt16
  externalAttributes : UInt32
  localHeaderOffset : UInt32
  name : List UInt8
  extra : List ExtraRecord
  comment : List UInt8
  name_fits : name.length < 65536
  extra_fits : (extraBytes extra).length < 65536
  comment_fits : comment.length < 65536

def CentralEntry.header (e : CentralEntry) : List UInt8 :=
  fields [(centralHeaderSignature, 4), (e.versionMadeBy.toNat, 2), (e.versionNeeded.toNat, 2),
    (e.gpFlag.toNat, 2),
    (e.compressionMethod.toNat, 2), (e.modTime.toNat, 2), (e.modDate.toNat, 2), (e.crc32.toNat, 4),
    (e.compressedSize.toNat, 4), (e.uncompressedSize.toNat, 4), (e.name.length, 2),
      ((extraBytes e.extra).length, 2),
    (e.comment.length, 2), (e.diskStart.toNat, 2), (e.internalAttributes.toNat, 2),
      (e.externalAttributes.toNat, 4),
    (e.localHeaderOffset.toNat, 4)]

def CentralEntry.bytes (e : CentralEntry) : List UInt8 :=
  e.header ++ (e.name ++ (extraBytes e.extra ++ e.comment))

def directoryBytes (es : List CentralEntry) : List UInt8 := es.flatMap CentralEntry.bytes

/-- The entry's local header stands where the directory says, with the entry's name. -/
def CentralEntry.HasLocalHeader (contents : List UInt8) (e : CentralEntry) : Prop :=
  e.localHeaderOffset.toNat + 30 + e.name.length ≤ contents.length ∧
    readAt contents e.localHeaderOffset.toNat 4 = localHeaderSignature ∧
    readAt contents (e.localHeaderOffset.toNat + 26) 2 = e.name.length ∧
    (contents.drop (e.localHeaderOffset.toNat + 30)).take e.name.length = e.name

instance (contents : List UInt8) (e : CentralEntry) : Decidable (e.HasLocalHeader contents) :=
  inferInstanceAs (Decidable (_ ∧ _))

section Entry
variable (e : CentralEntry) (es fs : List CentralEntry)

theorem length_header : e.header.length = 46 := by
  rw [CentralEntry.header, length_fields]
  simp only [List.map_cons, List.map_nil, List.sum_cons, List.sum_nil, Nat.reduceAdd]

theorem length_entry :
    e.bytes.length = 46 + e.name.length + (extraBytes e.extra).length + e.comment.length := by
  rw [CentralEntry.bytes, List.length_append, List.length_append, List.length_append, length_header]
  omega

theorem directoryBytes_cons : directoryBytes (e :: es) = e.bytes ++ directoryBytes es :=
  List.flatMap_cons

theorem directoryBytes_append :
    directoryBytes (es ++ fs) = directoryBytes es ++ directoryBytes fs := List.flatMap_append

/-- What a reader finds in an entry's header. -/
structure HeaderReads (header : List UInt8) : Prop where
  signature : readAt header 0 4 = centralHeaderSignature
  gpFlag : readAt header 8 2 = e.gpFlag.toNat
  compressionMethod : readAt header 10 2 = e.compressionMethod.toNat
  nameLength : readAt header 28 2 = e.name.length
  extraLength : readAt header 30 2 = (extraBytes e.extra).length
  commentLength : readAt header 32 2 = e.comment.length
  localHeaderOffset : readAt header 42 4 = e.localHeaderOffset.toNat

theorem header_reads : HeaderReads e e.header := by
  have hoffset : e.localHeaderOffset.toNat < 4294967296 := e.localHeaderOffset.toNat_lt
  rw [CentralEntry.header]
  constructor
  case signature => exact readAt_fields 0 rfl (by simp) (by decide)
  case gpFlag => exact readAt_fields 3 rfl (by simp) e.gpFlag.toNat_lt
  case compressionMethod => exact readAt_fields 4 rfl (by simp) e.compressionMethod.toNat_lt
  case nameLength => exact readAt_fields 10 rfl (by simp) e.name_fits
  case extraLength => exact readAt_fields 11 rfl (by simp) e.extra_fits
  case commentLength => exact readAt_fields 12 rfl (by simp) e.comment_fits
  case localHeaderOffset => exact readAt_fields 16 rfl (by simp) hoffset

end Entry

/-! ## Archives -/

/-- The digital signature a directory may end with. -/
def signatureBytes : Option (List UInt8) → List UInt8
  | none => []
  | some data => fields [(directorySignature, 4), (data.length, 2)] ++ data

/-- The end record and the archive's comment. -/
def endRecordOf (count size offset : Nat) (comment : List UInt8) : List UInt8 :=
  fields [(endRecordSignature, 4), (0, 2), (0, 2), (count, 2), (count, 2), (size, 4), (offset, 4),
    (comment.length, 2)] ++ comment

/-- An archive without ZIP64 records: `contents` are the local headers with their data. -/
structure Archive where
  contents : List UInt8
  entries : List CentralEntry
  signature : Option (List UInt8)
  comment : List UInt8
  locals : ∀ e ∈ entries, e.HasLocalHeader contents
  distinct : (entries.map (·.localHeaderOffset)).Nodup
  entries_fit : entries.length < 65535
  contents_fit : contents.length < 0xffffffff
  directory_fits : (directoryBytes entries ++ signatureBytes signature).length < 0xffffffff
  comment_fits : comment.length < 65536

namespace Archive
variable (a : Archive)

def directory : List UInt8 := directoryBytes a.entries ++ signatureBytes a.signature

def endRecord : List UInt8 := endRecordOf a.entries.length a.directory.length a.contents.length a.comment

def file : List UInt8 := a.contents ++ (a.directory ++ a.endRecord)

theorem length_endRecord : a.endRecord.length = 22 + a.comment.length := by
  rw [endRecord, endRecordOf, List.length_append, length_fields]
  simp only [List.map_cons, List.map_nil, List.sum_cons, List.sum_nil, Nat.reduceAdd]

theorem length_file :
    a.file.length = a.contents.length + a.directory.length + 22 + a.comment.length := by
  rw [file, List.length_append, List.length_append, length_endRecord]
  omega

/-- What a reader finds in the end record. -/
structure EndReads (bytes : List UInt8) : Prop where
  signature : readAt bytes 0 4 = endRecordSignature
  count : readAt bytes 10 2 = a.entries.length
  size : readAt bytes 12 4 = a.directory.length
  offset : readAt bytes 16 4 = a.contents.length

theorem endRecord_reads : EndReads a a.endRecord := by
  have hentries := a.entries_fit
  have hdirectory : a.directory.length < 0xffffffff := a.directory_fits
  have hcontents := a.contents_fit
  have hlen : ∀ v w x y z : Nat,
      (fields [(endRecordSignature, 4), (0, 2), (0, 2), (v, 2), (w, 2), (x, 4), (y, 4),
        (z, 2)]).length = 22 := by
    intro v w x y z
    rw [length_fields]
    rfl
  rw [endRecord, endRecordOf]
  constructor
  · exact readAt_front (by rw [hlen]; decide) (readAt_fields 0 rfl (by simp) (by decide))
  · exact readAt_front (by rw [hlen]; decide) (readAt_fields 4 rfl (by simp) (by omega))
  · exact readAt_front (by rw [hlen]; decide) (readAt_fields 5 rfl (by simp) (by omega))
  · exact readAt_front (by rw [hlen]; decide) (readAt_fields 6 rfl (by simp) (by omega))

end Archive

end Zip
