import Subdux.IconFiles
import Subdux.Lib.LittleEndian
/-!
# Icon files of several images

`internal/service/icon_upload_validation.go`: `sanitizeICO` once more, with every slice of the
input checked, over a PNG package that encodes and decodes.

`sanitizeICO_spec` says what file comes out, and that it is a file that stays as it is.
-/

namespace Subdux
open Results

/-! ## The PNG package -/

structure PngPackage (Image : Type) where
  decode : List UInt8 → Option Image
  bounds : Image → Int × Int
  encode : Image → Option (List UInt8)

/-- A decoder undoes the encoder and asks for the signature; an image with pixels that was decoded
has an encoding. -/
structure PngPackage.Lawful {Image : Type} (png : PngPackage Image) : Prop where
  roundTrip : ∀ image bytes, png.encode image = some bytes → png.decode bytes = some image
  signature : ∀ bytes image, png.decode bytes = some image → hasPNGSignature bytes = true
  encodes : ∀ bytes image, png.decode bytes = some image → 0 < (png.bounds image).1 →
    0 < (png.bounds image).2 →
    (png.encode image).isSome = true

def PngPackage.codec {Image : Type} (png : PngPackage Image)
    (jpeg : List UInt8 → Option (Option (List UInt8))) : ImageCodec where
  png := fun buf => (png.decode buf).map fun image => (png.bounds image, png.encode image)
  jpeg := jpeg

/-! ## Checked slices -/

/-- `buf[low:high]`, where the bounds are in range. -/
def goSlice (buf : List UInt8) (low high : Nat) : Option (List UInt8) :=
  if low ≤ high ∧ high ≤ buf.length then some ((buf.take high).drop low) else none

/-- `binary.LittleEndian.Uint16(buf[offset:offset+2])` and `Uint32(buf[offset:offset+4])`: the `n`
bytes have to be there. -/
def goUint (buf : List UInt8) (offset n : Nat) : Option Nat :=
  (goSlice buf offset (offset + n)).bind fun bytes => if n ≤ bytes.length
    then some (LittleEndian.number (bytes.take n)) else none

/-- What becomes of an entry whose data lies inside the file. -/
def icoEntryOf (images : ImageCodec) (data : List UInt8) : Option IcoEntry :=
  if !hasPNGSignature data then none
  else
    match images.png data with
    | some ((width, height), some cleaned) =>
      if width ≤ 0 ∨ height ≤ 0 then none
        else some ⟨icoDimensionByte width, icoDimensionByte height, cleaned⟩
    | _ => none

/-- A round of the loop over the directory; `none` is an access out of range. -/
def icoEntryChecked (images : ImageCodec) (buf : List UInt8) (dirLen i : Nat) :
    Option (Option IcoEntry) := do
  let entryOffset := 6 + i * 16
  let size ← goUint buf (entryOffset + 8) 4
  let dataOffset ← goUint buf (entryOffset + 12) 4
  if size = 0 ∨ dataOffset < dirLen ∨ buf.length < dataOffset + size then some none
  else
    let data ← goSlice buf dataOffset (dataOffset + size)
    some (icoEntryOf images data)

/-- The file that is written; its slices have fixed bounds. -/
def icoOutput (validEntries : List IcoEntry) : Except IconError (List UInt8) :=
  if validEntries = [] ∨ 0xFFFF < validEntries.length then .error .invalidICO
  else
    (icoDirectory (6 + validEntries.length * 16) validEntries).map fun directory =>
      putLittleEndian 0 2 ++ putLittleEndian 1 2 ++ putLittleEndian validEntries.length 2 ++ directory ++
        validEntries.flatMap (·.data)

/-- `sanitizeICO`; `none` is an access out of range. -/
def sanitizeICOChecked (images : ImageCodec) (buf : List UInt8) :
    Option (Except IconError (List UInt8)) := do
  let count ← goUint buf 4 2
  let dirLen := 6 + count * 16
  if count = 0 ∨ buf.length < dirLen then some (.error .invalidICO)
  else
    let entries ← (List.range count).mapM (icoEntryChecked images buf dirLen)
    some (icoOutput (entries.filterMap id))

section Checked
variable {images : ImageCodec} {buf : List UInt8}

theorem littleEndian_eq (buf : List UInt8) (offset n : Nat) :
    littleEndian buf offset n = LittleEndian.readAt buf offset n := rfl

theorem putLittleEndian_eq (value n : Nat) : putLittleEndian value n = LittleEndian.bytes value n := by
  induction n generalizing value with
  | zero => rfl
  | succ n ih => rw [putLittleEndian, LittleEndian.bytes, ih]

theorem goSlice_eq {low high : Nat} (hle : low ≤ high) (hlen : high ≤ buf.length) :
    goSlice buf low high = some ((buf.drop low).take (high - low)) := by
  rw [goSlice, if_pos ⟨hle, hlen⟩, List.drop_take]

/-- A number is read where its bytes are in range. -/
theorem goUint_eq {offset n : Nat} (hlen : offset + n ≤ buf.length) :
    goUint buf offset n = some (littleEndian buf offset n) := by
  have hn : n ≤ ((buf.drop offset).take n).length := by
    rw [List.length_take, List.length_drop]
    omega
  rw [goUint, goSlice_eq (by omega) hlen, Nat.add_sub_cancel_left, Option.bind_some, if_pos hn,
    List.take_take, Nat.min_self]
  rfl

theorem icoEntryAt_eq (images : ImageCodec) (buf : List UInt8) (dirLen i : Nat) :
    icoEntryAt images buf dirLen i =
    if littleEndian buf (6 + i * 16 + 8) 4 = 0 ∨ littleEndian buf (6 + i * 16 + 12) 4 < dirLen ∨
      buf.length < littleEndian buf (6 + i * 16 + 12) 4 + littleEndian buf (6 + i * 16 + 8) 4 then none
    else icoEntryOf images
    ((buf.drop (littleEndian buf (6 + i * 16 + 12) 4)).take (littleEndian buf (6 + i * 16 + 8) 4)) := rfl

theorem icoEntryChecked_eq {dirLen i : Nat} (hlen : 6 + i * 16 + 16 ≤ buf.length) :
    icoEntryChecked images buf dirLen i = some (icoEntryAt images buf dirLen i) := by
  rw [icoEntryAt_eq]
  unfold icoEntryChecked
  dsimp only
  rw [goUint_eq (by omega), goUint_eq (by omega)]
  simp only [Option.bind_eq_bind, Option.bind_some]
  split
  · rfl
  · rw [goSlice_eq (by omega) (by omega), Nat.add_sub_cancel_left, Option.bind_some]

theorem mapM_some {α β : Type} {f : α → Option β} {g : α → β} {xs : List α}
    (h : ∀ x ∈ xs, f x = some (g x)) :
    xs.mapM f = some (xs.map g) := by
  induction xs with
  | nil => rfl
  | cons x xs ih =>
    rw [List.mapM_cons, h x List.mem_cons_self, ih fun y hy => h y (List.mem_cons_of_mem _ hy)]
    rfl

theorem sanitizeICO_eq (images : ImageCodec) (buf : List UInt8) : sanitizeICO images buf =
    if littleEndian buf 4 2 = 0 ∨ buf.length < 6 + littleEndian buf 4 2 * 16 then .error .invalidICO
    else icoOutput ((List.range (littleEndian buf 4 2)).filterMap
      (icoEntryAt images buf (6 + littleEndian buf 4 2 * 16))) := rfl

/-- No access is out of range. -/
theorem sanitizeICOChecked_eq (hsig : hasICOSignature buf = true) :
    sanitizeICOChecked images buf = some (sanitizeICO images buf) := by
  have hlen : 6 ≤ buf.length := by
    simp only [hasICOSignature, Bool.and_eq_true, decide_eq_true_eq] at hsig
    exact hsig.1
  rw [sanitizeICO_eq]
  unfold sanitizeICOChecked
  rw [goUint_eq (by omega)]
  simp only [Option.bind_eq_bind, Option.bind_some]
  split
  · rfl
  · rename_i hdir
    rw [mapM_some (g := icoEntryAt images buf (6 + littleEndian buf 4 2 * 16)), Option.bind_some,
      List.filterMap_map]
    · rfl
    · intro i hi
      have := List.mem_range.1 hi
      exact icoEntryChecked_eq (by omega)

end Checked

/-! ## Well-formed files -/

/-- An entry of an icon directory. -/
structure IcoDirEntry where
  width : UInt8
  height : UInt8
  colors : UInt8
  reserved : UInt8
  planes : Nat
  bitCount : Nat
  size : Nat
  offset : Nat
  deriving DecidableEq

def icoDirEntryAt (buf : List UInt8) (i : Nat) : IcoDirEntry where
  width := buf.getD (6 + i * 16) 0
  height := buf.getD (6 + i * 16 + 1) 0
  colors := buf.getD (6 + i * 16 + 2) 0
  reserved := buf.getD (6 + i * 16 + 3) 0
  planes := littleEndian buf (6 + i * 16 + 4) 2
  bitCount := littleEndian buf (6 + i * 16 + 6) 2
  size := littleEndian buf (6 + i * 16 + 8) 4
  offset := littleEndian buf (6 + i * 16 + 12) 4

def icoCount (buf : List UInt8) : Nat := littleEndian buf 4 2

def icoEntries (buf : List UInt8) : List IcoDirEntry :=
  (List.range (icoCount buf)).map (icoDirEntryAt buf)

def icoData (buf : List UInt8) (entry : IcoDirEntry) : List UInt8 :=
  (buf.drop entry.offset).take entry.size

/-- The data ranges follow one another from `start` to `stop`. -/
def Contiguous : Nat → List IcoDirEntry → Nat → Prop
  | start, [], stop => start = stop
  | start, entry :: entries, stop => entry.offset = start ∧ Contiguous (start + entry.size) entries stop

/-- A file of at least one image, whose data fills what follows the directory. -/
structure WellFormedIco (buf : List UInt8) : Prop where
  signature : hasICOSignature buf = true
  count : 0 < icoCount buf
  directory : 6 + icoCount buf * 16 ≤ buf.length
  ranges : Contiguous (6 + icoCount buf * 16) (icoEntries buf) buf.length
  sizes : ∀ entry ∈ icoEntries buf, 0 < entry.size

/-- Ranges that follow one another do not overlap, and lie inside. -/
theorem Contiguous.disjoint {start stop : Nat} {entries : List IcoDirEntry}
    (h : Contiguous start entries stop) :
    (entries.Pairwise fun a b => a.offset + a.size ≤ b.offset) ∧ start ≤ stop ∧
      ∀ entry ∈ entries, start ≤ entry.offset ∧ entry.offset + entry.size ≤ stop := by
  induction entries generalizing start with
  | nil => exact ⟨List.Pairwise.nil, by rw [show start = stop from h], by simp⟩
  | cons entry entries ih =>
    obtain ⟨hoffset, hrest⟩ := h
    obtain ⟨hpairs, hle, hinside⟩ := ih hrest
    refine ⟨List.pairwise_cons.2 ⟨fun b hb => ?_, hpairs⟩, by omega, fun e he => ?_⟩
    · have := (hinside b hb).1
      omega
    · rcases List.mem_cons.1 he with rfl | he
      · omega
      · have := hinside e he
        omega

/-! ## The file that is written -/

def icoEntryBytes (offset : Nat) (entry : IcoEntry) : List UInt8 :=
  [entry.width, entry.height, 0, 0] ++ putLittleEndian 1 2 ++ putLittleEndian 32 2 ++
   putLittleEndian entry.data.length 4 ++
    putLittleEndian offset 4

def icoDirBytes : Nat → List IcoEntry → List UInt8
  | _, [] => []
  | offset, entry :: entries =>
    icoEntryBytes offset entry ++ icoDirBytes (offset + entry.data.length) entries

/-- Sizes and offsets are 32-bit words. -/
def IcoFits : Nat → List IcoEntry → Prop
  | _, [] => True
  | offset, entry :: entries =>
    entry.data.length ≤ 0xFFFFFFFF ∧ offset ≤ 0xFFFFFFFF ∧ IcoFits (offset + entry.data.length) entries

def dataLength (entries : List IcoEntry) : Nat := (entries.flatMap (·.data)).length

def icoFile (entries : List IcoEntry) : List UInt8 :=
  putLittleEndian 0 2 ++ putLittleEndian 1 2 ++ putLittleEndian entries.length 2 ++ icoDirBytes
    (6 + entries.length * 16) entries ++
    entries.flatMap (·.data)

section Written
variable {images : ImageCodec} {buf out : List UInt8} {offset : Nat} {entry : IcoEntry}
  {entries earlier later : List IcoEntry}

theorem icoDirectory_ok {directory : List UInt8} :
    icoDirectory offset entries = .ok directory ↔ IcoFits offset entries ∧
    directory = icoDirBytes offset entries := by
  induction entries generalizing offset directory with
  | nil =>
    simp only [icoDirectory, IcoFits, icoDirBytes, true_and, Except.ok.injEq]
    exact eq_comm
  | cons entry entries ih =>
    rw [icoDirectory]
    split
    · rename_i hbig
      refine iff_of_false (fun h => by cases h) ?_
      rintro ⟨⟨hsize, hoffset, -⟩, -⟩
      omega
    · rename_i hsmall
      constructor
      · intro h
        obtain ⟨tail, htail, rfl⟩ := map_eq_ok h
        obtain ⟨hfits, rfl⟩ := ih.1 htail
        exact ⟨⟨by omega, by omega, hfits⟩, rfl⟩
      · rintro ⟨⟨-, -, hfits⟩, rfl⟩
        rw [ih.2 ⟨hfits, rfl⟩]
        rfl

/-- What is accepted, and the file that comes out. -/
theorem icoOutput_ok : icoOutput entries = .ok out ↔
    entries ≠ [] ∧ entries.length ≤ 0xFFFF ∧ IcoFits (6 + entries.length * 16) entries ∧
    out = icoFile entries := by
  unfold icoOutput
  split
  · rename_i hnone
    refine iff_of_false (fun h => by cases h) ?_
    rintro ⟨hne, hlen, -⟩
    rcases hnone with rfl | hlong
    · exact hne rfl
    · omega
  · rename_i hsome
    rw [not_or] at hsome
    constructor
    · intro h
      obtain ⟨directory, hdir, rfl⟩ := map_eq_ok h
      obtain ⟨hfits, rfl⟩ := icoDirectory_ok.1 hdir
      exact ⟨hsome.1, by omega, hfits, rfl⟩
    · rintro ⟨-, -, hfits, rfl⟩
      rw [icoDirectory_ok.2 ⟨hfits, rfl⟩]
      rfl

@[simp] theorem length_icoEntryBytes (offset : Nat) (entry : IcoEntry) :
    (icoEntryBytes offset entry).length = 16 := by
  simp [icoEntryBytes, putLittleEndian_eq]

@[simp] theorem length_icoDirBytes (offset : Nat) (entries : List IcoEntry) :
    (icoDirBytes offset entries).length = entries.length * 16 := by
  induction entries generalizing offset with
  | nil => rfl
  | cons entry entries ih =>
    rw [icoDirBytes, List.length_append, length_icoEntryBytes, ih, List.length_cons]
    omega

theorem dataLength_cons : dataLength (entry :: entries) = entry.data.length + dataLength entries := by
  simp [dataLength]

theorem dataLength_append : dataLength (earlier ++ later) = dataLength earlier + dataLength later := by
  simp [dataLength]

theorem icoDirBytes_append : icoDirBytes offset (earlier ++ later) =
    icoDirBytes offset earlier ++ icoDirBytes (offset + dataLength earlier) later := by
  induction earlier generalizing offset with
  | nil => rfl
  | cons entry earlier ih =>
    rw [List.cons_append, icoDirBytes, ih, icoDirBytes, dataLength_cons, List.append_assoc,
      Nat.add_assoc]

theorem length_icoFile (entries : List IcoEntry) :
    (icoFile entries).length = 6 + entries.length * 16 + dataLength entries := by
  simp [icoFile, putLittleEndian_eq, dataLength]
  omega

theorem icoFits_later (h : IcoFits offset (earlier ++ later)) :
    IcoFits (offset + dataLength earlier) later := by
  induction earlier generalizing offset with
  | nil => exact h
  | cons entry earlier ih =>
    rw [dataLength_cons, ← Nat.add_assoc]
    exact ih h.2.2

/-- The directory entry stands after the entries before it. -/
theorem icoFile_entry (earlier : List IcoEntry) (entry : IcoEntry) (later : List IcoEntry) :
    ∃ before after, icoFile (earlier ++ entry :: later) =
      before ++ (icoEntryBytes
        (6 + (earlier ++ entry :: later).length * 16 + dataLength earlier) entry ++ after) ∧
    before.length = 6 + earlier.length * 16 := by
  refine ⟨putLittleEndian 0 2 ++ putLittleEndian 1 2 ++ putLittleEndian
    (earlier ++ entry :: later).length 2 ++
    icoDirBytes (6 + (earlier ++ entry :: later).length * 16) earlier,
    icoDirBytes (6 + (earlier ++ entry :: later).length * 16 + dataLength earlier +
      entry.data.length) later ++
      (earlier ++ entry :: later).flatMap (·.data), ?_, ?_⟩
  · rw [icoFile, icoDirBytes_append, icoDirBytes]
    simp only [List.append_assoc]
  · simp [putLittleEndian_eq]
    omega

/-- The data stands after the directory and the data before it. -/
theorem icoFile_data (earlier : List IcoEntry) (entry : IcoEntry) (later : List IcoEntry) :
    ∃ before after, icoFile (earlier ++ entry :: later) = before ++ (entry.data ++ after) ∧
    before.length = 6 + (earlier ++ entry :: later).length * 16 + dataLength earlier := by
  refine ⟨putLittleEndian 0 2 ++ putLittleEndian 1 2 ++ putLittleEndian
    (earlier ++ entry :: later).length 2 ++
    icoDirBytes (6 + (earlier ++ entry :: later).length * 16) (earlier ++ entry :: later) ++
      earlier.flatMap (·.data),
    later.flatMap (·.data), ?_, ?_⟩
  · rw [icoFile, List.flatMap_append, List.flatMap_cons]
    simp only [List.append_assoc]
  · simp [putLittleEndian_eq, dataLength]
    omega

theorem signature_icoFile (entries : List IcoEntry) : hasICOSignature (icoFile entries) = true := by
  have hlen := length_icoFile entries
  have hhead : icoFile entries = [0x00, 0x00, 0x01, 0x00] ++ (putLittleEndian entries.length 2 ++
      icoDirBytes (6 + entries.length * 16) entries ++ entries.flatMap (·.data)) := by
    simp only [icoFile, List.append_assoc]
    rfl
  rw [hasICOSignature, Bool.and_eq_true, decide_eq_true_eq, hhead]
  refine ⟨by rw [← hhead]; omega, ?_⟩
  rw [List.isPrefixOf_iff_prefix]
  exact List.prefix_append _ _

theorem icoCount_icoFile (hlen : entries.length ≤ 0xFFFF) :
    icoCount (icoFile entries) = entries.length := by
  have hfile : icoFile entries = (putLittleEndian 0 2 ++ putLittleEndian 1 2) ++
      (LittleEndian.bytes entries.length 2 ++
      (icoDirBytes (6 + entries.length * 16) entries ++ entries.flatMap (·.data))) := by
    rw [icoFile, putLittleEndian_eq entries.length]
    simp only [List.append_assoc]
  have hstart : (putLittleEndian 0 2 ++ putLittleEndian 1 2).length = 4 := rfl
  rw [icoCount, littleEndian_eq, hfile, ← hstart]
  exact LittleEndian.readAt_bytes (by omega)

end Written

/-! ## Reading it back -/

def icoDirEntryOf (offset : Nat) (entry : IcoEntry) : IcoDirEntry :=
  ⟨entry.width, entry.height, 0, 0, 1, 32, entry.data.length, offset⟩

/-- An entry made of an image with pixels. -/
def Made {Image : Type} (png : PngPackage Image) (entry : IcoEntry) (image : Image) : Prop :=
  0 < (png.bounds image).1 ∧ 0 < (png.bounds image).2 ∧ entry.width = icoDimensionByte
    (png.bounds image).1 ∧
    entry.height = icoDimensionByte (png.bounds image).2 ∧ png.encode image = some entry.data

section Reading
variable {Image : Type} {png : PngPackage Image} {jpeg : List UInt8 → Option (Option (List UInt8))}
  {image : Image} {images : List Image}
  {buf : List UInt8} {offset k n : Nat} {entry : IcoEntry} {entries earlier later : List IcoEntry}

theorem readAt_entry (hsize : entry.data.length ≤ 0xFFFFFFFF) (hoffset : offset ≤ 0xFFFFFFFF) :
    LittleEndian.readAt (icoEntryBytes offset entry) 4 2 = 1 ∧
    LittleEndian.readAt (icoEntryBytes offset entry) 6 2 = 32 ∧
    LittleEndian.readAt (icoEntryBytes offset entry) 8 4 = entry.data.length ∧
    LittleEndian.readAt (icoEntryBytes offset entry) 12 4 = offset := by
  have hbytes : icoEntryBytes offset entry = [entry.width, entry.height, 0, 0, 1, 0, 32, 0] ++
      (LittleEndian.bytes entry.data.length 4 ++ (LittleEndian.bytes offset 4 ++ [])) := by
    rw [List.append_nil, icoEntryBytes, putLittleEndian_eq entry.data.length,
      putLittleEndian_eq offset, List.append_assoc]
    rfl
  refine ⟨rfl, rfl, ?_, ?_⟩
  · rw [hbytes]
    have hlen : [entry.width, entry.height, 0, 0, 1, 0, 32, 0].length = 8 := rfl
    rw [← hlen]
    exact LittleEndian.readAt_bytes (by omega)
  · rw [hbytes, ← List.append_assoc]
    have hlen : ([entry.width, entry.height, 0, 0, 1, 0, 32, 0] ++
        LittleEndian.bytes entry.data.length 4).length = 12 := by simp
    rw [← hlen]
    exact LittleEndian.readAt_bytes (by omega)

theorem getD_inside {before mid after : List UInt8} (h : k < mid.length) :
    (before ++ (mid ++ after)).getD (before.length + k) 0 = mid.getD k 0 := by
  rw [List.getD_eq_getElem?_getD, List.getD_eq_getElem?_getD, List.getElem?_append_right (by omega),
    Nat.add_sub_cancel_left,
    List.getElem?_append_left h]

/-- The directory entries are read back. -/
theorem icoDirEntryAt_icoFile
    (hfits : IcoFits (6 + (earlier ++ entry :: later).length * 16) (earlier ++ entry :: later)) :
    icoDirEntryAt (icoFile (earlier ++ entry :: later)) earlier.length =
      icoDirEntryOf (6 + (earlier ++ entry :: later).length * 16 + dataLength earlier) entry := by
  obtain ⟨before, after, hfile, hlen⟩ := icoFile_entry earlier entry later
  obtain ⟨hsize, hoffset, -⟩ := icoFits_later hfits
  generalize 6 + (earlier ++ entry :: later).length * 16 + dataLength earlier = offset at hfile hoffset ⊢
  obtain ⟨hplanes, hbits, hsizeAt, hoffsetAt⟩ := readAt_entry hsize hoffset
  have hread : ∀ k n, k + n ≤ 16 → littleEndian (icoFile (earlier ++ entry :: later))
      (before.length + k) n =
      LittleEndian.readAt (icoEntryBytes offset entry) k n := by
    intro k n hk
    rw [littleEndian_eq, hfile, LittleEndian.readAt_inside (by simpa using hk)]
  have hbyte : ∀ k, k < 16 → (icoFile (earlier ++ entry :: later)).getD (before.length + k) 0 =
      (icoEntryBytes offset entry).getD k 0 := by
    intro k hk
    rw [hfile, getD_inside (by simpa using hk)]
  unfold icoDirEntryAt icoDirEntryOf
  rw [← hlen, hbyte 1 (by decide), hbyte 2 (by decide), hbyte 3 (by decide), hread 4 2 (by decide),
    hread 6 2 (by decide), hread 8 4 (by decide),
    hread 12 4 (by decide), hplanes, hbits, hsizeAt, hoffsetAt]
  have hfirst := hbyte 0 (by decide)
  rw [Nat.add_zero] at hfirst
  rw [hfirst]
  rfl

theorem icoData_icoFile (earlier : List IcoEntry) (entry : IcoEntry) (later : List IcoEntry) :
    icoData (icoFile (earlier ++ entry :: later))
    (icoDirEntryOf (6 + (earlier ++ entry :: later).length * 16 + dataLength earlier) entry) =
    entry.data := by
  obtain ⟨before, after, hfile, hlen⟩ := icoFile_data earlier entry later
  rw [icoData, icoDirEntryOf, hfile]
  dsimp only
  rw [← hlen, List.drop_left, List.take_left]

theorem Made.data_pos (hpng : png.Lawful) (h : Made png entry image) : 0 < entry.data.length := by
  have hsig := hpng.signature _ _ (hpng.roundTrip _ _ h.2.2.2.2)
  cases hdata : entry.data with
  | nil =>
    rw [hdata] at hsig
    exact absurd hsig (by decide)
  | cons b bs => simp

/-- The data of an entry is decoded and encoded to itself. -/
theorem icoEntryOf_made (hpng : png.Lawful) (h : Made png entry image) :
    icoEntryOf (png.codec jpeg) entry.data = some entry := by
  obtain ⟨hwidth, hheight, hw, hh, hencode⟩ := h
  have hdecode := hpng.roundTrip _ _ hencode
  have hsig := hpng.signature _ _ hdecode
  have hcodec : (png.codec jpeg).png entry.data = some
      (((png.bounds image).1, (png.bounds image).2), some entry.data) := by
    simp only [PngPackage.codec, hdecode, Option.map_some, hencode]
  unfold icoEntryOf
  rw [hsig, hcodec]
  have hpixels : ¬ ((png.bounds image).1 ≤ 0 ∨ (png.bounds image).2 ≤ 0) := by omega
  simp only [Bool.not_true, Bool.false_eq_true, if_false, if_neg hpixels, ← hw, ← hh]

/-- Sanitising the file again finds the same entry. -/
theorem icoEntryAt_icoFile (hpng : png.Lawful) (hmade : Made png entry image)
    (hfits : IcoFits (6 + (earlier ++ entry :: later).length * 16) (earlier ++ entry :: later)) :
    icoEntryAt (png.codec jpeg) (icoFile (earlier ++ entry :: later))
    (6 + (earlier ++ entry :: later).length * 16) earlier.length =
      some entry := by
  have hentry := icoDirEntryAt_icoFile hfits
  have hdata := icoData_icoFile earlier entry later
  have hsize := congrArg IcoDirEntry.size hentry
  have hoffset := congrArg IcoDirEntry.offset hentry
  have hlen := length_icoFile (earlier ++ entry :: later)
  have hpos := hmade.data_pos hpng
  have htotal : dataLength (earlier ++ entry :: later) = dataLength earlier +
      (entry.data.length + dataLength later) := by
    rw [dataLength_append, dataLength_cons]
  simp only [icoDirEntryAt, icoDirEntryOf] at hsize hoffset
  rw [icoEntryAt_eq, hsize, hoffset, if_neg (by omega)]
  rw [icoData] at hdata
  simp only [icoDirEntryOf] at hdata
  rw [hdata]
  exact icoEntryOf_made hpng hmade

end Reading

/-! ## What is kept of a file -/

/-- The image of an entry whose data lies behind the directory and inside the file. -/
def icoImageAt {Image : Type} (png : PngPackage Image) (buf : List UInt8) (i : Nat) : Option Image :=
  let entry := icoDirEntryAt buf i
  if 6 + icoCount buf * 16 ≤ entry.offset ∧ entry.offset + entry.size ≤ buf.length then
    (png.decode (icoData buf entry)).filter fun image => 0 < (png.bounds image).1 ∧
      0 < (png.bounds image).2
  else none

def icoImages {Image : Type} (png : PngPackage Image) (buf : List UInt8) : List Image :=
  (List.range (icoCount buf)).filterMap (icoImageAt png buf)

/-- The entry describes the image, and its data is the image's encoding. -/
def Shows {Image : Type} (png : PngPackage Image) (buf : List UInt8) (entry : IcoDirEntry)
    (image : Image) : Prop :=
  entry.width = icoDimensionByte (png.bounds image).1 ∧ entry.height = icoDimensionByte
    (png.bounds image).2 ∧
    entry.colors = 0 ∧ entry.reserved = 0 ∧ entry.planes = 1 ∧ entry.bitCount = 32 ∧
      png.encode image = some (icoData buf entry)

def icoDirSpec : Nat → List IcoEntry → List IcoDirEntry
  | _, [] => []
  | offset, entry :: entries =>
    icoDirEntryOf offset entry :: icoDirSpec (offset + entry.data.length) entries

section Kept
variable {Image : Type} {png : PngPackage Image} {jpeg : List UInt8 → Option (Option (List UInt8))}
  {image : Image} {images : List Image}
  {buf out data : List UInt8} {offset : Nat} {entry : IcoEntry} {entries earlier later : List IcoEntry}

/-- Data is kept exactly if it decodes to an image with pixels. -/
theorem icoEntryOf_cases (hpng : png.Lawful) (data : List UInt8) :
    icoEntryOf (png.codec jpeg) data = none ∧
        ((png.decode data).filter fun image => 0 < (png.bounds image).1 ∧
          0 < (png.bounds image).2) = none ∨
      ∃ entry image, icoEntryOf (png.codec jpeg) data = some entry ∧
        ((png.decode data).filter fun image => 0 < (png.bounds image).1 ∧
          0 < (png.bounds image).2) = some image ∧ Made png entry image := by
  cases hdecode : png.decode data with
  | none =>
    refine .inl ⟨?_, rfl⟩
    unfold icoEntryOf
    split
    · rfl
    · simp only [PngPackage.codec, hdecode, Option.map_none]
  | some image =>
    have hsig := hpng.signature _ _ hdecode
    have hcodec : (png.codec jpeg).png data = some
        (((png.bounds image).1, (png.bounds image).2), png.encode image) := by
      simp only [PngPackage.codec, hdecode, Option.map_some]
    by_cases hpixels : 0 < (png.bounds image).1 ∧ 0 < (png.bounds image).2
    · obtain ⟨cleaned, hencode⟩ :=
        Option.isSome_iff_exists.1 (hpng.encodes _ _ hdecode hpixels.1 hpixels.2)
      refine .inr ⟨⟨icoDimensionByte (png.bounds image).1, icoDimensionByte (png.bounds image).2,
        cleaned⟩, image, ?_, ?_,
        hpixels.1, hpixels.2, rfl, rfl, hencode⟩
      · have hnot : ¬ ((png.bounds image).1 ≤ 0 ∨ (png.bounds image).2 ≤ 0) := by omega
        unfold icoEntryOf
        rw [hsig, hcodec, hencode]
        simp only [Bool.not_true, Bool.false_eq_true, if_false, if_neg hnot]
      · rw [Option.filter_some, if_pos (by simpa using hpixels)]
    · refine .inl ⟨?_, ?_⟩
      · have hnone : (png.bounds image).1 ≤ 0 ∨ (png.bounds image).2 ≤ 0 := by omega
        unfold icoEntryOf
        rw [hsig, hcodec]
        cases png.encode image with
        | none => rfl
        | some cleaned => simp only [Bool.not_true, Bool.false_eq_true, if_false, if_pos hnone]
      · rw [Option.filter_some, if_neg (by simpa using hpixels)]

/-- A round of the loop keeps an image or nothing. -/
theorem icoEntryAt_cases (hpng : png.Lawful) (buf : List UInt8) (i : Nat) :
    icoEntryAt (png.codec jpeg) buf (6 + icoCount buf * 16) i = none ∧ icoImageAt png buf i = none ∨
      ∃ entry image, icoEntryAt (png.codec jpeg) buf (6 + icoCount buf * 16) i = some entry ∧
        icoImageAt png buf i = some image ∧
        Made png entry image := by
  rw [icoEntryAt_eq]
  unfold icoImageAt icoData icoDirEntryAt
  dsimp only
  generalize littleEndian buf (6 + i * 16 + 8) 4 = size
  generalize littleEndian buf (6 + i * 16 + 12) 4 = dataOffset
  by_cases hrange : 6 + icoCount buf * 16 ≤ dataOffset ∧ dataOffset + size ≤ buf.length
  · rw [if_pos hrange]
    by_cases hsize : size = 0
    · -- no data has no signature
      refine .inl ⟨if_pos (.inl hsize), ?_⟩
      rw [hsize, List.take_zero]
      cases hdecode : png.decode [] with
      | none => rfl
      | some image => exact absurd (hpng.signature _ _ hdecode) (by decide)
    · rw [if_neg (by omega)]
      exact icoEntryOf_cases hpng _
  · rw [if_neg hrange]
    exact .inl ⟨if_pos (by omega), rfl⟩

theorem forall₂_filterMap {α β γ : Type} {R : β → γ → Prop} {f : α → Option β} {g : α → Option γ}
    (xs : List α) (h : ∀ x, f x = none ∧ g x = none ∨ ∃ b c, f x = some b ∧ g x = some c ∧ R b c) :
    List.Forall₂ R (xs.filterMap f) (xs.filterMap g) := by
  induction xs with
  | nil => exact List.Forall₂.nil
  | cons x xs ih =>
    rcases h x with ⟨hf, hg⟩ | ⟨b, c, hf, hg, hr⟩
    · rw [List.filterMap_cons_none hf, List.filterMap_cons_none hg]
      exact ih
    · rw [List.filterMap_cons_some hf, List.filterMap_cons_some hg]
      exact List.Forall₂.cons hr ih

theorem entries_made (hpng : png.Lawful) (buf : List UInt8) : List.Forall₂ (Made png)
    ((List.range (icoCount buf)).filterMap
      (icoEntryAt (png.codec jpeg) buf (6 + icoCount buf * 16))) (icoImages png buf) :=
  forall₂_filterMap _ (icoEntryAt_cases hpng buf)

/-! ## The file that comes out -/

theorem append_cons (earlier : List IcoEntry) (entry : IcoEntry) (later : List IcoEntry) :
    earlier ++ entry :: later = (earlier ++ [entry]) ++ later := by simp

theorem length_snoc : (earlier ++ [entry]).length = earlier.length + 1 := by simp

theorem dataLength_snoc :
    dataLength (earlier ++ [entry]) = dataLength earlier + entry.data.length := by simp [dataLength]

/-- The directory as it is read, from an entry on. -/
theorem icoEntries_from (earlier : List IcoEntry)
    (hfits : IcoFits (6 + (earlier ++ later).length * 16) (earlier ++ later)) :
    (List.range' earlier.length later.length).map (icoDirEntryAt (icoFile (earlier ++ later))) =
      icoDirSpec (6 + (earlier ++ later).length * 16 + dataLength earlier) later := by
  induction later generalizing earlier with
  | nil => rfl
  | cons entry later ih =>
    have hrest := ih (earlier ++ [entry]) (by rwa [← append_cons])
    rw [← append_cons, dataLength_snoc, length_snoc, ← Nat.add_assoc] at hrest
    rw [List.length_cons, List.range'_succ, List.map_cons, icoDirEntryAt_icoFile hfits, hrest]
    rfl

/-- Every entry shows its image. -/
theorem shows_from (earlier : List IcoEntry) (himages : List.Forall₂ (Made png) later images) :
    List.Forall₂ (Shows png (icoFile (earlier ++ later)))
    (icoDirSpec (6 + (earlier ++ later).length * 16 + dataLength earlier) later) images := by
  induction himages generalizing earlier with
  | nil => exact List.Forall₂.nil
  | @cons entry image later images hmade _ ih =>
    have hrest := ih (earlier ++ [entry])
    rw [← append_cons, dataLength_snoc, ← Nat.add_assoc] at hrest
    refine List.Forall₂.cons ?_ hrest
    obtain ⟨-, -, hwidth, hheight, hencode⟩ := hmade
    exact ⟨hwidth, hheight, rfl, rfl, rfl, rfl, by rw [icoData_icoFile, hencode]⟩

/-- Sanitising the file finds the entries that it was made of. -/
theorem entries_from (earlier : List IcoEntry) (hpng : png.Lawful)
    (himages : List.Forall₂ (Made png) later images)
    (hfits : IcoFits (6 + (earlier ++ later).length * 16) (earlier ++ later)) :
    (List.range' earlier.length later.length).filterMap
      (icoEntryAt (png.codec jpeg) (icoFile (earlier ++ later))
        (6 + (earlier ++ later).length * 16)) = later := by
  induction himages generalizing earlier with
  | nil => rfl
  | @cons entry image later images hmade _ ih =>
    have hrest := ih (earlier ++ [entry]) (by rwa [← append_cons])
    rw [← append_cons, length_snoc] at hrest
    rw [List.length_cons, List.range'_succ, List.filterMap_cons_some
      (icoEntryAt_icoFile hpng hmade hfits), hrest]

theorem contiguous_icoDirSpec (entries : List IcoEntry) (offset : Nat) :
    Contiguous offset (icoDirSpec offset entries) (offset + dataLength entries) := by
  induction entries generalizing offset with
  | nil => rfl
  | cons entry entries ih =>
    rw [dataLength_cons, ← Nat.add_assoc]
    exact ⟨rfl, ih _⟩

theorem size_pos_of_shows (hpng : png.Lawful) {shown : List IcoDirEntry}
    (h : List.Forall₂ (Shows png buf) shown images) :
    ∀ entry ∈ shown, 0 < entry.size := by
  intro entry hentry
  obtain ⟨image, -, -, -, -, -, -, -, hencode⟩ : ∃ image, image ∈ images ∧
      Shows png buf entry image := by
    induction h with
    | nil => cases hentry
    | @cons e image es images hshows _ ih =>
      rcases List.mem_cons.1 hentry with rfl | hentry
      · exact ⟨image, List.mem_cons_self, hshows⟩
      · obtain ⟨i, hi, hs⟩ := ih hentry
        exact ⟨i, List.mem_cons_of_mem _ hi, hs⟩
  have hsig := hpng.signature _ _ (hpng.roundTrip _ _ hencode)
  rcases Nat.eq_zero_or_pos entry.size with hzero | hpos
  · rw [icoData, hzero, List.take_zero] at hsig
    exact absurd hsig (by decide)
  · exact hpos

/-- What comes out is the file of the images of the input, encoded anew. -/
theorem sanitizeICO_made (hpng : png.Lawful) {out : List UInt8}
    (h : sanitizeICO (png.codec jpeg) buf = .ok out) :
    ∃ entries, List.Forall₂ (Made png) entries (icoImages png buf) ∧ icoOutput entries = .ok out := by
  rw [sanitizeICO_eq] at h
  split at h
  · cases h
  · exact ⟨_, entries_made hpng buf, h⟩

/-- The file of images that were encoded stays as it is. -/
theorem sanitizeICO_icoFile (hpng : png.Lawful) {entries : List IcoEntry}
    (himages : List.Forall₂ (Made png) entries images) {out : List UInt8}
    (hout : icoOutput entries = .ok out) : sanitizeICO (png.codec jpeg) out = .ok out := by
  obtain ⟨hne, hlen, hfits, rfl⟩ := icoOutput_ok.1 hout
  have hcount := icoCount_icoFile hlen
  have hfile := length_icoFile entries
  have hpos := List.length_pos_of_ne_nil hne
  have hagain : (List.range entries.length).filterMap
      (icoEntryAt (png.codec jpeg) (icoFile entries) (6 + entries.length * 16)) = entries := by
    rw [List.range_eq_range']
    exact entries_from [] hpng himages hfits
  rw [icoCount] at hcount
  rw [sanitizeICO_eq, hcount, if_neg (by omega), hagain]
  exact hout

/-- **What `sanitizeICO` makes of a file.** No access is out of range; a file that comes out is well
formed, has the images of the input in their order, encoded anew and end to end, and sanitising it
once more changes nothing. -/
theorem sanitizeICO_spec {Image : Type} (png : PngPackage Image) (hpng : png.Lawful)
    (jpeg : List UInt8 → Option (Option (List UInt8))) (buf : List UInt8)
    (hsig : hasICOSignature buf = true) :
    sanitizeICOChecked (png.codec jpeg) buf = some (sanitizeICO (png.codec jpeg) buf) ∧
    ∀ out, sanitizeICO (png.codec jpeg) buf = .ok out →
      WellFormedIco out ∧ List.Forall₂ (Shows png out) (icoEntries out) (icoImages png buf) ∧
      ((icoEntries out).Pairwise fun a b => a.offset + a.size ≤ b.offset) ∧
      sanitizeICO (png.codec jpeg) out = .ok out := by
  refine ⟨sanitizeICOChecked_eq hsig, fun out hout => ?_⟩
  obtain ⟨entries, himages, hout⟩ := sanitizeICO_made hpng hout
  have hagain : sanitizeICO (png.codec jpeg) out = .ok out := sanitizeICO_icoFile hpng himages hout
  obtain ⟨hne, hlen, hfits, rfl⟩ := icoOutput_ok.1 hout
  have hcount := icoCount_icoFile hlen
  have hread : icoEntries (icoFile entries) = icoDirSpec (6 + entries.length * 16) entries := by
    rw [icoEntries, hcount, List.range_eq_range']
    exact icoEntries_from [] hfits
  have hshows : List.Forall₂ (Shows png (icoFile entries)) (icoEntries (icoFile entries))
      (icoImages png buf) := by
    rw [hread]
    exact shows_from [] himages
  have hranges : Contiguous (6 + icoCount (icoFile entries) * 16) (icoEntries (icoFile entries))
      (icoFile entries).length := by
    rw [hread, hcount, length_icoFile]
    exact contiguous_icoDirSpec _ _
  have hfile := length_icoFile entries
  have hpos := List.length_pos_of_ne_nil hne
  exact ⟨⟨signature_icoFile entries, by omega, by omega, hranges, size_pos_of_shows hpng hshows⟩,
    hshows, hranges.disjoint.1, hagain⟩

end Kept

/-! ## One pixel -/

/-- The encoding of a black pixel. -/
def pixelBytes : List UInt8 :=
  [0x89, 0x50, 0x4E, 0x47, 0x0D, 0x0A, 0x1A, 0x0A,
   0, 0, 0, 13, 0x49, 0x48, 0x44, 0x52, 0, 0, 0, 1, 0, 0, 0, 1, 8, 0, 0, 0, 0, 0x3A, 0x7E, 0x9B, 0x55,
   0, 0, 0, 14, 0x49, 0x44, 0x41, 0x54, 0x78, 0x9C, 0x62, 0x62, 0, 4, 0, 0, 0xFF, 0xFF, 0, 6, 0, 3,
     0xFA, 0xD0, 0x59, 0xAE,
   0, 0, 0, 0, 0x49, 0x45, 0x4E, 0x44, 0xAE, 0x42, 0x60, 0x82]

/-- A package that knows one image. -/
def pixelPng : PngPackage Unit where
  decode := fun buf => if buf = pixelBytes then some () else none
  bounds := fun _ => (1, 1)
  encode := fun _ => some pixelBytes

theorem pixelPng_lawful : pixelPng.Lawful where
  roundTrip := by
    intro image bytes h
    exact if_pos (Option.some.inj h).symm
  signature := by
    intro bytes image h
    unfold pixelPng at h
    dsimp only at h
    split at h
    · rename_i hbytes
      rw [hbytes]
      decide
    · cases h
  encodes := fun _ _ _ _ _ => rfl

/-- Two entries: the first one's data overlaps the directory, and two bytes stand before the second
one's. -/
def overlappingIco : List UInt8 :=
  [0, 0, 1, 0, 2, 0] ++ [16, 16, 0, 0, 1, 0, 32, 0, 10, 0, 0, 0, 0, 0, 0, 0] ++
   [7, 7, 0, 0, 0, 0, 0, 0, 71, 0, 0, 0, 40, 0, 0, 0] ++
    [0, 0] ++ pixelBytes

def pixelIco : List UInt8 :=
  [0, 0, 1, 0, 1, 0] ++ [1, 1, 0, 0, 1, 0, 32, 0, 71, 0, 0, 0, 22, 0, 0, 0] ++ pixelBytes

theorem sanitizeICO_sample :
    WellFormedIco pixelIco ∧ sanitizeICO (pixelPng.codec fun _ => none) pixelIco = .ok pixelIco := by
  have hsanitized : sanitizeICO (pixelPng.codec fun _ => none) overlappingIco = .ok pixelIco := by
    decide +kernel
  obtain ⟨hwell, -, -, hagain⟩ :=
    (sanitizeICO_spec pixelPng pixelPng_lawful (fun _ => none) overlappingIco (by decide)).2
      pixelIco hsanitized
  exact ⟨hwell, hagain⟩

end Subdux
