import Subdux.AssetRestore
import Subdux.Lib.JsonMaps
import Mathlib.Algebra.Order.BigOperators.Group.List
import Mathlib.Algebra.Ring.Int.Defs
import Mathlib.Algebra.Ring.Nat
/-!
# The restore quota

`extractAssetsFromZip` counts what it reads from the archive against `maxAssetsExtractedSize`
and writes what the image encoder makes of it. The files it leaves are the last entries of
each name, re-encoded (`leftFiles_accepted`): their number stays within the limit, and their
sizes do where no image grows. An image that grows breaks a limit when it comes twice
(`restore_quota_iff`).
-/

namespace Subdux

open GoStrings GoPath Results JsonText

/-! ## What an entry becomes -/

/-- An image before and after: the bytes it had in the archive and what the encoder made of it. -/
structure Reencoded where
  sourceSize : Nat
  content : List UInt8
deriving DecidableEq

/-- The image under `assets/` that an entry carries, with its path there. -/
def ZipEntry.reencoded (images : ImageCodec) (entry : ZipEntry) : Option (String × Reencoded) :=
  match normalizeZipEntryPath entry.name, entry.opened with
  | some cleanPath, .ok source =>
    if hasPrefix cleanPath "assets/" ∧ trimPrefix cleanPath "assets/" ≠ "" ∧
      entry.mode.isDir = false then
      (sanitizeIconContent images source.data).toOption.map fun out =>
        (trimPrefix cleanPath "assets/", ⟨source.data.length, out.1⟩)
    else none
  | _, _ => none

def reencodedAssets (images : ImageCodec) (entries : List ZipEntry) : List (String × Reencoded) :=
  entries.filterMap (·.reencoded images)

/-- Of the images with the same path, the last. -/
def keptAssets (images : ImageCodec) (entries : List ZipEntry) : List (String × Reencoded) :=
  lastOfEach (reencodedAssets images entries)

section
variable {images : ImageCodec} {os : RestoreOS} {limits : BackupRestoreLimits}
  {tempAssetsDir : String} {st st' : Extraction}
  {entry : ZipEntry} {entries : List ZipEntry} {asset : Asset} {relativePath : String}
    {image : Reencoded}

theorem normalizeZipEntryPath_render {cleanPath : String}
    (h : normalizeZipEntryPath entry.name = some cleanPath) :
    cleanPath = entry.position.render := by
  rw [normalizeZipEntryPath_eq] at h
  split at h
  · cases h
  · exact (Option.some.inj h).symm

/-- The path of an image is made of names. -/
theorem reencoded_names (h : entry.reencoded images = some (relativePath, image)) :
    ∀ e ∈ elements relativePath, IsName e := by
  rw [ZipEntry.reencoded] at h
  cases hclean : normalizeZipEntryPath entry.name with
  | none =>
    rw [hclean] at h
    cases h
  | some cleanPath =>
    rw [hclean] at h
    cases hopened : entry.opened with
    | error err =>
      rw [hopened] at h
      cases h
    | ok source =>
      rw [hopened] at h
      simp only at h
      split at h
      · rename_i hbelow
        obtain ⟨hstart, -, -⟩ := hbelow
        obtain ⟨out, -, heq⟩ := Option.map_eq_some_iff.1 h
        have hpath : trimPrefix cleanPath "assets/" = relativePath := congrArg Prod.fst heq
        have hrender := normalizeZipEntryPath_render hclean
        have hsome : (normalizeZipEntryPath entry.name).isSome = true := by rw [hclean]; rfl
        rw [hrender] at hstart hpath
        obtain ⟨rest, hassets⟩ := (inAssets_iff hsome).1 (.inr hstart)
        have hrest : rest ≠ [] := by
          intro hnil
          have hback : ['/'].intercalate
              (elements entry.position.render) = entry.position.render.toList :=
            List.intercalate_splitOn '/'
          rw [InAssets_elements hassets, hnil] at hback
          rw [String.toList_inj.1
            (show entry.position.render.toList = "assets".toList from hback.symm)] at hstart
          exact absurd hstart (by decide)
        rw [← hpath, (InAssets_relative hassets hrest).2]
        exact InAssets_names hassets
      · cases h

theorem sanitizeRestoreAsset_ok {filename : String} {maxBytes : Nat} {out : List UInt8 × Nat}
    (h : sanitizeRestoreAsset images entry filename maxBytes = .ok out) :
    ∃ source format, entry.opened = .ok source ∧ sanitizeIconContent images source.data = .ok
    (out.1, format) ∧
      out.2 = source.data.length ∧ source.data.length ≤ maxBytes := by
  rw [sanitizeRestoreAsset] at h
  obtain ⟨source, hsource, h⟩ := bind_eq_ok h
  generalize hfile : sanitizeIconFile images source filename maxBytes = file at h
  obtain ⟨sanitized, bytesRead⟩ := file
  obtain ⟨found, hfound, h⟩ := bind_eq_ok h
  obtain rfl := Except.ok.inj h
  have hok : (sanitizeIconFile images source filename maxBytes).1 = .ok found := by
    rw [hfile, mapError_eq_ok hfound]
  obtain ⟨⟨format, hcontent⟩, hbytes, hle, -⟩ := sanitizeIconFile_ok hok
  rw [hfile] at hbytes
  exact ⟨source, format, mapError_eq_ok hsource, hcontent, hbytes, hle⟩

/-- An entry that is unpacked: the image it carries, at its path, read within what is left of the
limits. -/
theorem assetToRestore_some
    (h : assetToRestore images limits tempAssetsDir st entry = .ok (some asset)) :
    ∃ relativePath, entry.reencoded images = some (relativePath, ⟨asset.sourceSize, asset.content⟩) ∧
      asset.targetPath = join tempAssetsDir relativePath ∧ st.assetEntries + 1 ≤ limits.maxAssetEntries ∧
      (asset.sourceSize : Int) ≤ max (limits.maxAssetsExtractedSize - st.extractedSize) 0 := by
  rw [assetToRestore] at h
  cases hclean : normalizeZipEntryPath entry.name with
  | none =>
    rw [hclean] at h
    cases h
  | some cleanPath =>
    rw [hclean] at h
    simp only at h
    split at h
    · cases h
    rename_i hassets
    split at h
    · cases h
    rename_i hsome
    split at h
    · split at h <;> cases h
    rename_i hdir
    obtain ⟨found, hfound, heq⟩ := map_eq_ok h
    obtain rfl := Option.some.inj heq
    obtain ⟨_, -, hfound⟩ := bind_eq_ok hfound
    obtain ⟨_, -, hfound⟩ := bind_eq_ok hfound
    obtain ⟨_, hcount, hfound⟩ := bind_eq_ok hfound
    obtain ⟨_, -, hfound⟩ := bind_eq_ok hfound
    obtain ⟨out, hout, hfound⟩ := bind_eq_ok hfound
    obtain ⟨_, -, hfound⟩ := bind_eq_ok hfound
    obtain rfl := Except.ok.inj hfound
    obtain ⟨source, format, hopened, hcontent, hbytes, hle⟩ := sanitizeRestoreAsset_ok hout
    push Not at hassets
    refine ⟨trimPrefix cleanPath "assets/", ?_, rfl, Nat.not_lt.1 (refuseIf_ok hcount), ?_⟩
    · have hstart : hasPrefix cleanPath "assets/" = true := by simpa using hassets.2
      rw [ZipEntry.reencoded, hclean, hopened]
      simp only [hstart, hcontent, ne_eq, hsome, not_false_eq_true, Bool.not_eq_true] at hdir ⊢
      simp [hdir, hbytes, Except.toOption]
    · show (out.2 : Int) ≤ _
      omega

/-- An entry that is passed over carries no image. -/
theorem assetToRestore_none (h : assetToRestore images limits tempAssetsDir st entry = .ok none) :
    entry.reencoded images = none := by
  rw [assetToRestore] at h
  rw [ZipEntry.reencoded]
  cases hclean : normalizeZipEntryPath entry.name with
  | none => rfl
  | some cleanPath =>
    rw [hclean] at h
    simp only at h
    cases entry.opened with
    | error err => rfl
    | ok source =>
      simp only
      rw [if_neg]
      rintro ⟨hstart, hsome, hdir⟩
      have hne : cleanPath ≠ "assets" := by
        rintro rfl
        exact absurd hstart (by decide)
      simp only [hne, hstart, hsome, hdir, Bool.not_true, Bool.false_eq_true, or_self, if_false] at h
      obtain ⟨_, -, heq⟩ := map_eq_ok h
      cases heq

/-! ## What the loop leaves -/

/-- Where an image is written, and what. -/
def unpackedFile (tempAssetsDir : String) (asset : String × Reencoded) : Position × List UInt8 :=
  (position (join tempAssetsDir asset.1), asset.2.content)

def sourceSizes (assets : List (String × Reencoded)) : Int :=
  (assets.map fun a => (a.2.sourceSize : Int)).sum

theorem sourceSizes_cons (a : String × Reencoded) (assets : List (String × Reencoded)) :
    sourceSizes (a :: assets) = a.2.sourceSize + sourceSizes assets := by
  rw [sourceSizes, List.map_cons, List.sum_cons]
  rfl

theorem storeAsset_ok (h : storeAsset os asset st = (none, st')) :
    st'.disk.files = put st.disk.files (position asset.targetPath, asset.content) ∧
      st' = ⟨st'.disk, st.written ++ [position asset.targetPath], st.extractedSize + asset.sourceSize,
        st.assetEntries + 1⟩ := by
  rw [storeAsset] at h
  simp only at h
  split at h
  · cases h
  rename_i disk hmkdir
  split at hmkdir
  · cases hmkdir
  split at h
  · cases h
  rename_i disk' hwrite
  split at h
  · cases h
  rename_i hrefuses
  rw [if_neg hrefuses] at hwrite
  obtain rfl := (Prod.mk.inj h).2
  refine ⟨?_, rfl⟩
  change disk.writeFile _ asset.content = some disk' at hwrite
  rw [Disk.writeFile] at hwrite
  split at hwrite
  · cases hwrite
  obtain rfl := Option.some.inj hwrite
  rw [put, ← Disk.mkdirAll_files hmkdir]

/-- What a loop that runs to its end did: it wrote every image in turn, within the limits on what it
read. -/
structure Unpacked (images : ImageCodec) (limits : BackupRestoreLimits) (tempAssetsDir : String)
    (entries : List ZipEntry) (st st' : Extraction) : Prop where
  files : st'.disk.files = ((reencodedAssets images entries).map (unpackedFile tempAssetsDir)).foldl
    put st.disk.files
  read : st'.extractedSize = st.extractedSize + sourceSizes (reencodedAssets images entries)
  count : st'.assetEntries = st.assetEntries + (reencodedAssets images entries).length
  readWithin : st.extractedSize ≤ max limits.maxAssetsExtractedSize 0 →
    st'.extractedSize ≤ max limits.maxAssetsExtractedSize 0
  countWithin : st.assetEntries ≤ limits.maxAssetEntries → st'.assetEntries ≤ limits.maxAssetEntries

theorem extractEntries_unpacked
    (h : extractEntries images os limits tempAssetsDir entries st = (none, st')) :
    Unpacked images limits tempAssetsDir entries st st' := by
  induction entries generalizing st with
  | nil =>
    obtain rfl := (Prod.mk.inj h).2
    exact ⟨rfl, (Int.add_zero _).symm, rfl, id, id⟩
  | cons entry entries ih =>
    rw [extractEntries] at h
    cases hbody : assetToRestore images limits tempAssetsDir st entry with
    | error err =>
      rw [hbody] at h
      cases h
    | ok found =>
      rw [hbody] at h
      cases found with
      | none =>
        have hrest := ih h
        have hassets : reencodedAssets images (entry :: entries) = reencodedAssets images entries :=
          List.filterMap_cons_none (assetToRestore_none hbody)
        constructor
        case files => rw [hassets, hrest.files]
        case read => rw [hassets, hrest.read]
        case count => rw [hassets, hrest.count]
        case readWithin => exact hrest.readWithin
        case countWithin => exact hrest.countWithin
      | some asset =>
        simp only at h
        obtain ⟨relativePath, himage, htarget, hcount, hsize⟩ := assetToRestore_some hbody
        split at h
        · cases h
        rename_i next hstored
        obtain ⟨hfiles, hnext⟩ := storeAsset_ok hstored
        have hread : next.extractedSize = st.extractedSize + asset.sourceSize := by rw [hnext]
        have hentries : next.assetEntries = st.assetEntries + 1 := by rw [hnext]
        have hrest := ih h
        have hassets : reencodedAssets images (entry :: entries) =
            (relativePath, ⟨asset.sourceSize, asset.content⟩) :: reencodedAssets images entries :=
          List.filterMap_cons_some himage
        constructor
        case files =>
          rw [hrest.files, hfiles, hassets, List.map_cons, List.foldl_cons, unpackedFile, htarget]
        case read => rw [hrest.read, hread, hassets, sourceSizes_cons, Int.add_assoc]
        case count =>
          rw [hrest.count, hentries, hassets, List.length_cons]
          omega
        case readWithin =>
          intro hle
          apply hrest.readWithin
          omega
        case countWithin =>
          intro _
          apply hrest.countWithin
          omega

theorem mem_reencodedAssets {a : String × Reencoded} (h : a ∈ reencodedAssets images entries) :
    ∀ e ∈ elements a.1, IsName e := by
  obtain ⟨entry, -, hentry⟩ := List.mem_filterMap.1 h
  exact reencoded_names hentry

/-- The files of the temporary directory. -/
def filesIn (disk : Disk) (tempAssetsDir : String) : List (Position × List UInt8) :=
  disk.files.filter fun f => Disk.isUnder (position tempAssetsDir) f.1

/-- The files a finished loop leaves are the last images of each path. -/
theorem filesIn_unpacked {dataDisk tempDisk : Disk}
    (hdir : mkdirTempAssets os dataDisk = some (tempAssetsDir, tempDisk))
    (h : Unpacked images limits tempAssetsDir entries ⟨tempDisk, [], 0, 0⟩ st') :
    filesIn st'.disk tempAssetsDir = (keptAssets images entries).map (unpackedFile tempAssetsDir) := by
  obtain ⟨htemp, hmkdir, -⟩ := mkdirTempAssets_spec hdir
  have hnames : ∀ a ∈ reencodedAssets images entries, ∀ e ∈ elements a.1, IsName e :=
    fun a ha => mem_reencodedAssets ha
  have hkept : lastOfEach ((reencodedAssets images entries).map (unpackedFile tempAssetsDir)) =
      (keptAssets images entries).map (unpackedFile tempAssetsDir) :=
    lastOfEach_map (g := fun path => position (join tempAssetsDir path))
      (h := fun image : Reencoded => image.content)
      fun a ha b hb heq => position_join_inj htemp (hnames a ha) (hnames b hb) heq
  have hfree := Disk.mkdir_free hmkdir
  rw [Disk.occupied, Bool.or_eq_false_iff, List.any_eq_false, List.any_eq_false] at hfree
  have hbefore : (tempDisk.files.filter fun f =>
      f.1 ∉ ((reencodedAssets images entries).map (unpackedFile tempAssetsDir)).map
      (·.1)).filter (fun f => Disk.isUnder (position tempAssetsDir) f.1) = [] := by
    rw [List.filter_eq_nil_iff]
    intro f hf
    rw [Disk.mkdir_files hmkdir] at hf
    exact hfree.2 f (List.mem_of_mem_filter hf)
  have hunder : ∀ f ∈ (keptAssets images entries).map (unpackedFile tempAssetsDir),
      Disk.isUnder (position tempAssetsDir) f.1 = true := by
    intro f hf
    rw [← hkept] at hf
    have hkey := mem_keys_lastOfEach.1 (List.mem_map_of_mem (f := (·.1)) hf)
    rw [List.map_map] at hkey
    obtain ⟨a, ha, hat⟩ := List.mem_map.1 hkey
    rw [← hat]
    show Disk.isUnder _ (position (join tempAssetsDir a.1)) = true
    rw [position_join_names htemp (hnames a ha)]
    exact Disk.isUnder_within _
  rw [filesIn, h.files, foldl_put, List.filter_append, hbefore, List.nil_append, hkept]
  exact List.filter_eq_self.2 hunder

/-! ## The quota -/

def totalSize (files : List (Position × List UInt8)) : Nat := (files.map (·.2.length)).sum

theorem totalSize_cons (f : Position × List UInt8) (files : List (Position × List UInt8)) :
    totalSize (f :: files) = f.2.length + totalSize files := by
  rw [totalSize, List.map_cons, List.sum_cons]
  rfl

/-- Images that do not grow take no more than was read of them. -/
theorem totalSize_unpacked_le (tempAssetsDir : String) {assets : List (String × Reencoded)}
    (h : ∀ a ∈ assets, a.2.content.length ≤ a.2.sourceSize) :
    (totalSize (assets.map (unpackedFile tempAssetsDir)) : Int) ≤ sourceSizes assets := by
  induction assets with
  | nil => rfl
  | cons a assets ih =>
    have hfirst := h a List.mem_cons_self
    have hrest := ih fun b hb => h b (List.mem_cons_of_mem a hb)
    have hsize : (unpackedFile tempAssetsDir a).2.length = a.2.content.length := rfl
    rw [List.map_cons, totalSize_cons, sourceSizes_cons, hsize]
    omega

theorem sourceSizes_kept_le (images : ImageCodec) (entries : List ZipEntry) :
    sourceSizes (keptAssets images entries) ≤ sourceSizes (reencodedAssets images entries) := by
  apply ((lastOfEach_sublist _).map _).sum_le_sum
  intro n hn
  obtain ⟨a, -, rfl⟩ := List.mem_map.1 hn
  exact Int.natCast_nonneg _

end

/-- The files an extraction leaves in the temporary directory it made. -/
def leftFiles (out : Extracted) : List (Position × List UInt8) :=
  match out.tempDir with
  | none => []
  | some tempAssetsDir => filesIn out.disk tempAssetsDir

section
variable {images : ImageCodec} {os : RestoreOS} {limits : BackupRestoreLimits} {disk : Disk}
  {entries : List ZipEntry}
  {out : Extracted}

/-- Only an accepted archive leaves files. -/
theorem Outcome.leftFiles_refused (h : Outcome images os limits disk entries out)
    (hrefused : ∀ tempAssetsDir, out.result ≠ .ok (some tempAssetsDir)) : leftFiles out = [] := by
  cases h with
  | noAssets => rfl
  | noDirectory => rfl
  | unpacked tempAssetsDir => exact absurd rfl (hrefused tempAssetsDir)
  | refused tempAssetsDir dataDisk tempDisk err st =>
    show (st.disk.removeAll (position tempAssetsDir)).files.filter _ = []
    rw [Disk.removeAll, List.filter_filter]
    refine List.filter_eq_nil_iff.2 fun f _ => ?_
    simp

/-- The files an accepted archive leaves: the last image of each path, as the encoder made it. -/
theorem Outcome.leftFiles_accepted (h : Outcome images os limits disk entries out)
    {tempAssetsDir : String} (haccepted : out.result = .ok (some tempAssetsDir)) :
    leftFiles out = (keptAssets images entries).map (unpackedFile tempAssetsDir) ∧
      (reencodedAssets images entries).length ≤ limits.maxAssetEntries ∧
      sourceSizes (reencodedAssets images entries) ≤ max limits.maxAssetsExtractedSize 0 := by
  cases h with
  | noAssets => cases haccepted
  | noDirectory => cases haccepted
  | refused => cases haccepted
  | unpacked temp dataDisk tempDisk st hdata htemp hloop =>
    obtain rfl : temp = tempAssetsDir := Option.some.inj (Except.ok.inj haccepted)
    have hrun := extractEntries_unpacked hloop
    have hcount : st.assetEntries = 0 + (reencodedAssets images entries).length := hrun.count
    have hread : st.extractedSize = 0 + sourceSizes (reencodedAssets images entries) := hrun.read
    refine ⟨filesIn_unpacked htemp hrun, ?_, ?_⟩
    · have hwithin := hrun.countWithin (Nat.zero_le _)
      omega
    · have hwithin := hrun.readWithin (le_max_right _ _)
      omega

end

/-- The quota as far as it goes: the files number at most `maxAssetEntries`, a refused archive
leaves none, and where no kept image grows their sizes stay within `maxAssetsExtractedSize`. -/
theorem restore_within (images : ImageCodec) (os : RestoreOS) (limits : BackupRestoreLimits)
    (disk : Disk) (entries : List ZipEntry) :
    let out := extractAssetsFromZip images os limits disk entries
    (leftFiles out).length ≤ limits.maxAssetEntries ∧
    ((∀ tempAssetsDir, out.result ≠ .ok (some tempAssetsDir)) → leftFiles out = []) ∧
    (0 ≤ limits.maxAssetsExtractedSize →
      (∀ a ∈ keptAssets images entries, a.2.content.length ≤ a.2.sourceSize) →
      totalSize (leftFiles out) ≤ limits.maxAssetsExtractedSize) := by
  have houtcome := extractAssetsFromZip_outcome images os limits disk entries
  by_cases haccepted : ∃ tempAssetsDir,
    (extractAssetsFromZip images os limits disk entries).result = .ok (some tempAssetsDir)
  · obtain ⟨tempAssetsDir, haccepted⟩ := haccepted
    obtain ⟨hleft, hcount, hread⟩ := houtcome.leftFiles_accepted haccepted
    refine ⟨?_, fun hrefused => absurd haccepted (hrefused tempAssetsDir), fun hlimit hgrowth => ?_⟩
    · rw [hleft, List.length_map]
      exact (lastOfEach_sublist _).length_le.trans hcount
    · have hkept := sourceSizes_kept_le images entries
      have hsize := totalSize_unpacked_le tempAssetsDir hgrowth
      rw [hleft]
      omega
  · push Not at haccepted
    dsimp only
    rw [houtcome.leftFiles_refused haccepted]
    exact ⟨Nat.zero_le _, fun _ => rfl, fun hlimit _ => hlimit⟩

/-! ## One image twice -/

def pngSignature : List UInt8 := [0x89, 0x50, 0x4E, 0x47, 0x0D, 0x0A, 0x1A, 0x0A]

/-- An image package whose encoder turns every PNG into twenty bytes. -/
def wideImageCodec : ImageCodec := ⟨fun _ => some ((1, 1), some (List.replicate 20 0)), fun _ => none⟩

def IconFormat.extension : IconFormat → String
  | .png => ".png"
  | .jpg => ".jpg"
  | .ico => ".ico"

/-- An image, under a name of one letter. -/
def iconEntry (data : List UInt8) (format : IconFormat) (letter : String) : ZipEntry :=
  ⟨"assets/icons/" ++ letter ++ format.extension, ⟨0⟩, data.length, .ok ⟨data, none⟩⟩

/-- The temporary directory of `sampleRestoreOS`. -/
def iconTemp : String := "data/.subdux-restore-assets-1"

def iconPath (format : IconFormat) (letter : String) : String := "icons/" ++ letter ++ format.extension

section Names
variable (format : IconFormat) {letter : String}

theorem iconEntry_name (hletter : letter ∈ ["a", "b"]) :
    let name := "assets/icons/" ++ letter ++ format.extension
    normalizeZipEntryPath name = some name ∧ name ≠ "assets" ∧ hasPrefix name "assets/" = true ∧
      trimPrefix name "assets/" = iconPath format letter := by
  simp only [List.mem_cons, List.not_mem_nil, or_false] at hletter
  rcases hletter with rfl | rfl <;> cases format <;> decide +kernel

theorem iconPath_restorable (hletter : letter ∈ ["a", "b"]) :
    let relativePath := iconPath format letter
    relativePath ≠ "" ∧ isRestorableAssetPath relativePath = true ∧
      normalizeIconExtension (base relativePath) ≠ "" ∧
      iconExtensionMatchesFormat (normalizeIconExtension (base relativePath)) format = true ∧
      isSubPath iconTemp (join iconTemp relativePath) = true := by
  simp only [List.mem_cons, List.not_mem_nil, or_false] at hletter
  rcases hletter with rfl | rfl <;> cases format <;> decide +kernel

end Names

section Twins
variable {images : ImageCodec} {data content : List UInt8} {format : IconFormat} {letter : String}
  {limits : BackupRestoreLimits}
  {st : Extraction}

theorem sanitizeRestoreAsset_icon {maxBytes : Nat} (hletter : letter ∈ ["a", "b"])
    (h : sanitizeIconContent images data = .ok (content, format)) (hread : data.length ≤ maxBytes)
    (hout : content.length ≤ maxBytes) :
    sanitizeRestoreAsset images (iconEntry data format letter)
    (base (iconPath format letter)) maxBytes = .ok (content, data.length) := by
  obtain ⟨-, -, hextension, hformat, -⟩ := iconPath_restorable format hletter
  have hall : (Source.mk data (none : Option ZipError)).readAllLimited (maxBytes + 1) =
      (.ok data, data.length) := by
    rw [Source.readAllLimited, if_pos (Nat.lt_succ_of_le hread)]
  have hmatch : ¬ (!iconExtensionMatchesFormat
      (normalizeIconExtension (base (iconPath format letter))) format) = true := by
    simp [hformat]
  simp only [sanitizeRestoreAsset, iconEntry, sanitizeIconFile, hextension, if_false,
    Except.mapError, ok_bind, hall,
    refuseIf_of_not (Nat.not_lt.2 hread), h, refuseIf_of_not hmatch, refuseIf_of_not (Nat.not_lt.2 hout)]
  rfl

/-- An image that is small enough before and after is unpacked. -/
theorem assetToRestore_icon (hletter : letter ∈ ["a", "b"])
    (h : sanitizeIconContent images data = .ok (content, format))
    (hcount : st.assetEntries + 1 ≤ limits.maxAssetEntries)
    (hread : st.extractedSize + data.length ≤ limits.maxAssetsExtractedSize)
    (hout : st.extractedSize + content.length ≤ limits.maxAssetsExtractedSize) :
    assetToRestore images limits iconTemp st (iconEntry data format letter) =
      .ok (some ⟨join iconTemp (iconPath format letter), content, data.length⟩) := by
  obtain ⟨hname, hassets, hstart, htrim⟩ := iconEntry_name format hletter
  obtain ⟨hsome, hpath, -, -, hsub⟩ := iconPath_restorable format hletter
  have hdir : FileMode.isDir ⟨0⟩ = false := by decide
  have hregular : FileMode.isRegular ⟨0⟩ = true := by decide
  have hmax : max (limits.maxAssetsExtractedSize - st.extractedSize) 0 =
      limits.maxAssetsExtractedSize - st.extractedSize := by
    omega
  have hasset : restorableAsset images limits iconTemp (iconPath format letter) st.extractedSize
      (st.assetEntries + 1)
      (iconEntry data format letter) = .ok
        ⟨join iconTemp (iconPath format letter), content, data.length⟩ := by
    have hentry : (iconEntry data format letter).mode.isRegular = true := hregular
    have hsize : ¬ (limits.maxAssetsExtractedSize - st.extractedSize < 0 ∨
        limits.maxAssetsExtractedSize - st.extractedSize <
          (iconEntry data format letter).uncompressedSize) := by
      have hlength : (iconEntry data format letter).uncompressedSize = data.length := rfl
      omega
    simp only [restorableAsset, validateZipFileEntrySize, hmax, hpath, hentry, hsub, Bool.not_true,
      refuseIf_of_not Bool.false_ne_true,
      refuseIf_of_not (Nat.not_lt.2 hcount), refuseIf_of_not hsize, ok_bind,
      sanitizeRestoreAsset_icon hletter h
        (show data.length ≤ (limits.maxAssetsExtractedSize - st.extractedSize).toNat by omega)
        (show content.length ≤ (limits.maxAssetsExtractedSize - st.extractedSize).toNat by omega)]
    rfl
  rw [assetToRestore, iconEntry, hname]
  simp only [hassets, hstart, htrim, hsome, hdir, Bool.not_true, Bool.false_eq_true, or_self, if_false]
  rw [show (⟨_, _, _, _⟩ : ZipEntry) = iconEntry data format letter from rfl, hasset]
  rfl

/-! The directories on the way to an icon, and the loop over a list of them. -/

theorem reencoded_content {entry : ZipEntry} {a : String × Reencoded}
    (h : entry.reencoded images = some a) :
    ∃ data format, a.2.sourceSize = data.length ∧ sanitizeIconContent images data = .ok
    (a.2.content, format) := by
  rw [ZipEntry.reencoded] at h
  split at h
  · rename_i source _ _
    split at h
    · obtain ⟨out, hout, rfl⟩ := Option.map_eq_some_iff.1 h
      cases hcontent : sanitizeIconContent images source.data with
      | error err =>
        rw [hcontent] at hout
        cases hout
      | ok found =>
        rw [hcontent] at hout
        obtain rfl : found = out := Option.some.inj hout
        exact ⟨source.data, found.2, rfl, hcontent⟩
    · cases h
  · cases h

def iconDirs : List Position := Disk.ancestors (position (iconTemp ++ "/icons"))

variable (format) in
theorem iconTarget (hletter : letter ∈ ["a", "b"]) :
    let target := join iconTemp (iconPath format letter)
    position (dir target) = position (iconTemp ++ "/icons") ∧ position target ∉ iconDirs ∧
      Disk.upTo (position target) ((position target).down.length - 1) ∈ iconDirs := by
  simp only [List.mem_cons, List.not_mem_nil, or_false] at hletter
  rcases hletter with rfl | rfl <;> cases format <;> decide +kernel

/-- What the loop needs of the disk: no file stands in the way of a directory. -/
structure IconsReady (disk : Disk) : Prop where
  dirs : disk.dirs ++ iconDirs.filter (· ∉ disk.dirs) = iconDirs
  files : ∀ f ∈ disk.files, f.1 ∉ iconDirs

variable (data content format) in
theorem storeAsset_icon (hletter : letter ∈ ["a", "b"]) (hready : IconsReady st.disk) :
    ∃ disk, IconsReady disk ∧
      storeAsset sampleRestoreOS ⟨join iconTemp (iconPath format letter), content, data.length⟩ st =
        (none, ⟨disk, st.written ++ [position (join iconTemp (iconPath format letter))],
          st.extractedSize + data.length,
          st.assetEntries + 1⟩) := by
  obtain ⟨hdir, hfresh, hparent⟩ := iconTarget format hletter
  have hrefuses : ∀ n, sampleRestoreOS.refuses n = false := fun _ => rfl
  have hmkdir : st.disk.mkdirAll (position (iconTemp ++ "/icons")) = some
      { st.disk with dirs := iconDirs } := by
    have hblocked : ¬ (Disk.ancestors (position (iconTemp ++ "/icons"))).any st.disk.isFile = true := by
      rw [List.any_eq_true]
      rintro ⟨p, hp, hfile⟩
      obtain ⟨f, hf, hsame⟩ := List.any_eq_true.1 hfile
      exact hready.files f hf (eq_of_beq hsame ▸ hp)
    rw [Disk.mkdirAll, if_neg hblocked]
    exact congrArg (fun dirs => some { st.disk with dirs := dirs }) hready.dirs
  have hwrite : ∃ written, IconsReady written ∧ ({ st.disk with dirs := iconDirs } : Disk).writeFile
      (position (join iconTemp (iconPath format letter))) content = some written := by
    refine ⟨_, ⟨?_, ?_⟩, if_neg ?_⟩
    · simp
    · intro f hf
      rcases List.mem_append.1 hf with hf | hf
      · exact hready.files f (List.mem_of_mem_filter hf)
      · rw [List.mem_singleton.1 hf]
        exact hfresh
    · rintro (h | h)
      · exact hfresh h
      · exact h hparent
  obtain ⟨written, hwritten, hwrite⟩ := hwrite
  refine ⟨written, hwritten, ?_⟩
  simp only [storeAsset, hrefuses, hdir, hmkdir, Bool.false_eq_true, if_false, Option.bind_some, hwrite]

/-- The loop takes all images while their sources leave room for the last one's encoding. -/
theorem extractEntries_icons {letters : List String} (hletters : ∀ letter ∈ letters, letter ∈ ["a", "b"])
    (h : sanitizeIconContent images data = .ok (content, format))
    (hgrowth : data.length ≤ content.length) (hready : IconsReady st.disk)
    (hcount : st.assetEntries + letters.length ≤ limits.maxAssetEntries)
    (hroom : st.extractedSize + letters.length * data.length +
      (content.length - data.length) ≤ limits.maxAssetsExtractedSize) :
      (extractEntries images sampleRestoreOS limits iconTemp
      (letters.map (iconEntry data format)) st).1 = none := by
  induction letters generalizing st with
  | nil => rfl
  | cons letter letters ih =>
    have hletter := hletters letter List.mem_cons_self
    rw [List.length_cons] at hcount hroom
    push_cast at hroom
    rw [Int.add_mul, one_mul] at hroom
    have hrest : 0 ≤ (letters.length : Int) * data.length :=
      Int.mul_nonneg (Int.natCast_nonneg _) (Int.natCast_nonneg _)
    obtain ⟨disk, hdisk, hstored⟩ := storeAsset_icon data content format hletter hready
    rw [List.map_cons, extractEntries, assetToRestore_icon hletter h (by omega) (by omega) (by omega)]
    simp only [hstored]
    apply ih (fun letter hmem => hletters letter (List.mem_cons_of_mem _ hmem)) hdisk
    · dsimp only
      omega
    · dsimp only
      omega

theorem reencoded_icon (hletter : letter ∈ ["a", "b"])
    (h : sanitizeIconContent images data = .ok (content, format)) :
    (iconEntry data format letter).reencoded images = some
    (iconPath format letter, ⟨data.length, content⟩) := by
  obtain ⟨hname, -, hstart, htrim⟩ := iconEntry_name format hletter
  obtain ⟨hsome, -⟩ := iconPath_restorable format hletter
  have hdir : FileMode.isDir ⟨0⟩ = false := by decide
  simp only [ZipEntry.reencoded, iconEntry, hname, hstart, htrim, hdir, h, Except.toOption,
    Option.map_some]
  rw [if_pos ⟨trivial, hsome, trivial⟩]

/-- Both images are accepted, and leave what the encoder made of each. -/
theorem icons_accepted (h : sanitizeIconContent images data = .ok (content, format))
    (hgrowth : data.length ≤ content.length) (hcount : 2 ≤ limits.maxAssetEntries)
    (hroom : (data.length : Int) + content.length ≤ limits.maxAssetsExtractedSize) :
    let out :=
      extractAssetsFromZip images sampleRestoreOS limits ⟨[], []⟩ (["a", "b"].map (iconEntry data format))
    out.result = .ok (some iconTemp) ∧ totalSize (leftFiles out) = 2 * content.length := by
  have hletters : ∀ letter ∈ ["a", "b"], letter ∈ ["a", "b"] := fun _ h => h
  have hassets : shouldRestoreAssets (["a", "b"].map (iconEntry data format)) = true := by
    obtain ⟨hname, -, hstart, -⟩ := iconEntry_name format (hletters "a" List.mem_cons_self)
    rw [shouldRestoreAssets, List.map_cons, List.any_cons, Bool.or_eq_true]
    refine .inl ?_
    simp only [iconEntry, hname, hstart, Bool.or_true]
  have hdata : (⟨[], []⟩ : Disk).mkdirAll (position sampleRestoreOS.getDataPath) = some
      ⟨iconDirs.take 2, []⟩ := by decide +kernel
  have htemp : mkdirTempAssets sampleRestoreOS ⟨iconDirs.take 2, []⟩ = some
      (iconTemp, ⟨iconDirs.take 3, []⟩) := by decide +kernel
  have hready : IconsReady ⟨iconDirs.take 3, []⟩ :=
    ⟨by decide +kernel, fun f hf => absurd hf List.not_mem_nil⟩
  -- neither the count nor the sum of the sources stops the loop
  have hloop : (extractEntries images sampleRestoreOS limits iconTemp
      (["a", "b"].map (iconEntry data format))
      ⟨⟨iconDirs.take 3, []⟩, [], 0, 0⟩).1 = none := by
    apply extractEntries_icons hletters h hgrowth hready
    · exact hcount
    · have hlength : ((["a", "b"].length : Nat) : Int) = 2 := rfl
      dsimp only
      rw [hlength]
      omega
  have hrefuses : ∀ n, sampleRestoreOS.refuses n = false := fun _ => rfl
  have haccepted : (extractAssetsFromZip images sampleRestoreOS limits ⟨[], []⟩
      (["a", "b"].map (iconEntry data format))).result =
      .ok (some iconTemp) := by
    rw [extractAssetsFromZip]
    simp only [hassets, hrefuses, hdata, htemp, Bool.not_true, Bool.false_eq_true, if_false]
    split
    · rename_i err st heq
      rw [heq] at hloop
      cases hloop
    · rfl
  refine ⟨haccepted, ?_⟩
  have houtcome :=
    extractAssetsFromZip_outcome images sampleRestoreOS limits ⟨[], []⟩
      (["a", "b"].map (iconEntry data format))
  have hkept : keptAssets images (["a", "b"].map (iconEntry data format)) =
      [(iconPath format "a", ⟨data.length, content⟩),
       (iconPath format "b", ⟨data.length, content⟩)] := by
    have hpaths : iconPath format "a" ≠ iconPath format "b" := by cases format <;> decide
    rw [keptAssets, reencodedAssets, List.map_cons, List.map_cons, List.map_nil,
      List.filterMap_cons_some (reencoded_icon (hletters "a" (by simp)) h),
      List.filterMap_cons_some (reencoded_icon (hletters "b" (by simp)) h), List.filterMap_nil]
    simp [lastOfEach, hpaths]
  rw [(houtcome.leftFiles_accepted haccepted).1, hkept, List.map_cons, List.map_cons, List.map_nil,
    totalSize_cons, totalSize_cons]
  show content.length + (content.length + 0) = _
  omega

end Twins

/-- The restore quota. The files left in the temporary directory number at most `maxAssetEntries`,
and there are none unless the archive is accepted. Their sizes sum to at most
`maxAssetsExtractedSize` where no kept image grows; and the image package keeps every archive within
every limit exactly when it re-encodes no image to more bytes than it had. -/
theorem restore_quota_iff (images : ImageCodec) :
    (∀ (os : RestoreOS) (limits : BackupRestoreLimits) (disk : Disk) (entries : List ZipEntry),
      let out := extractAssetsFromZip images os limits disk entries
      (leftFiles out).length ≤ limits.maxAssetEntries ∧
      ((∀ tempAssetsDir, out.result ≠ .ok (some tempAssetsDir)) → leftFiles out = []) ∧
      (0 ≤ limits.maxAssetsExtractedSize →
        (∀ a ∈ keptAssets images entries, a.2.content.length ≤ a.2.sourceSize) →
        totalSize (leftFiles out) ≤ limits.maxAssetsExtractedSize)) ∧
    ((∀ (os : RestoreOS) (limits : BackupRestoreLimits) (disk : Disk) (entries : List ZipEntry),
      0 ≤ limits.maxAssetsExtractedSize →
        totalSize (leftFiles (extractAssetsFromZip images os limits disk entries)) ≤
          limits.maxAssetsExtractedSize) ↔
      ∀ data content format, sanitizeIconContent images data = .ok (content, format) →
        content.length ≤ data.length) := by
  refine ⟨restore_within images, fun hquota data content format h => ?_,
    fun hgrowth os limits disk entries hlimit => ?_⟩
  · -- An image that grows breaks a quota when it comes twice.
    by_contra hgrows
    let limits : BackupRestoreLimits := ⟨0, data.length + content.length, 2⟩
    have hroom : (data.length : Int) + content.length ≤ limits.maxAssetsExtractedSize := le_refl _
    obtain ⟨-, hsize⟩ := icons_accepted h (not_le.1 hgrows).le (le_refl 2) hroom
    have hle :=
      hquota sampleRestoreOS limits ⟨[], []⟩ (["a", "b"].map (iconEntry data format)) (by omega)
    rw [hsize] at hle
    have hlimit : limits.maxAssetsExtractedSize = data.length + content.length := rfl
    omega
  · refine (restore_within images os limits disk entries).2.2 hlimit fun a ha => ?_
    obtain ⟨entry, -, hentry⟩ := List.mem_filterMap.1 ((lastOfEach_sublist _).subset ha)
    obtain ⟨data, format, hsource, hcontent⟩ := reencoded_content hentry
    rw [hsource]
    exact hgrowth data a.2.content format hcontent

/-- Two images that stay as they are leave the 16 bytes they had, within a limit of 30. -/
theorem restore_quota_sample :
    let out := extractAssetsFromZip sampleImageCodec sampleRestoreOS ⟨33554432, 30, 2⟩ ⟨[], []⟩
      (["a", "b"].map (iconEntry pngSignature .png))
    totalSize (leftFiles out) = 16 ∧ totalSize (leftFiles out) ≤ (30 : Int) := by
  have hcontent : sanitizeIconContent sampleImageCodec pngSignature = .ok (pngSignature, .png) := by
    decide +kernel
  have hgrowth : ∀ a ∈ keptAssets sampleImageCodec (["a", "b"].map (iconEntry pngSignature .png)),
      a.2.content.length ≤ a.2.sourceSize := by
    decide +kernel
  have hquota := ((restore_quota_iff sampleImageCodec).1 sampleRestoreOS ⟨33554432, 30, 2⟩ ⟨[], []⟩
    (["a", "b"].map (iconEntry pngSignature .png))).2.2
  exact ⟨(icons_accepted hcontent (le_refl _) (by decide) (by decide)).2, hquota (by decide) hgrowth⟩

/-- Two images of 8 bytes that become 20 bytes each are restored too, and leave 40 bytes. -/
theorem restore_quota_exceeded :
    let out := extractAssetsFromZip wideImageCodec sampleRestoreOS ⟨33554432, 30, 2⟩ ⟨[], []⟩
      (["a", "b"].map (iconEntry pngSignature .png))
    out.result = .ok (some "data/.subdux-restore-assets-1") ∧ ¬ totalSize (leftFiles out) ≤
      (30 : Int) := by
  have hcontent : sanitizeIconContent wideImageCodec pngSignature = .ok
      (List.replicate 20 0, .png) := by decide +kernel
  let limits : BackupRestoreLimits := ⟨33554432, 30, 2⟩
  have hcount : 2 ≤ limits.maxAssetEntries := by decide
  obtain ⟨haccepted, hsize⟩ := icons_accepted hcontent (by decide) hcount (by decide)
  refine ⟨haccepted, ?_⟩
  rw [hsize]
  decide

end Subdux
