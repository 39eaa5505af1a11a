import Subdux.IconFiles
import Subdux.Lib.Disk
/-!
# Assets from a backup archive

`extractAssetsFromZip`: the entries of an uploaded archive that lie under
`assets/` are unpacked into a fresh temporary directory below the data path.
An archive names its entries as it likes, so every name goes through
`normalizeZipEntryPath` first. What is written lies in the `icons` directory
under an icon's name (`restored_assets_in_icons`), and an archive with a name
that leads elsewhere is refused, with nothing left on the disk.
-/

namespace Subdux

open GoStrings GoPath Results

inductive RestoreError where
  | passwordRequired
  | invalidPassword
  | invalidBackup (message : String)
  | os
deriving DecidableEq, Repr

structure BackupRestoreLimits where
  maxDatabaseExtractedSize : Int
  maxAssetsExtractedSize : Int
  maxAssetEntries : Nat

def defaultBackupRestoreLimits : BackupRestoreLimits := ⟨33554432, 67108864, 2048⟩

/-- Go's `fs.FileMode`. -/
structure FileMode where
  bits : BitVec 32
deriving DecidableEq

/-- `fs.ModeDir`. -/
def modeDir : BitVec 32 := 0x80000000

/-- `fs.ModeType`: directory, symbolic link, named pipe, socket, device, character device, irregular. -/
def modeType : BitVec 32 := 0x8F280000

def FileMode.isDir (mode : FileMode) : Bool := mode.bits &&& modeDir != 0

def FileMode.isRegular (mode : FileMode) : Bool := mode.bits &&& modeType == 0

inductive ZipError where
  /-- `zip.ErrPassword`, `ErrAuthentication` or `ErrDecryption`. -/
  | password
  | other
deriving DecidableEq, Repr

/-- An entry of the archive, with what opening it gives. -/
structure ZipEntry where
  name : String
  mode : FileMode
  uncompressedSize : Nat
  opened : Except ZipError (Source ZipError)

def isRestorableAssetPath (relativePath : String) : Bool :=
  match elements relativePath with
  | [folder, filename] =>
    folder = "icons".toList && filename ≠ [] && base (String.ofList filename) = String.ofList filename &&
      isIconExtension (toLower (ext (String.ofList filename)))
  | _ => false

/-- `strings.TrimSpace(strings.ReplaceAll(entryName, "\\", "/"))`. -/
def sanitizedEntryName (entryName : String) : String :=
  trimSpace (String.ofList (entryName.toList.map fun c => if c = '\\' then '/' else c))

def hasPrefix (s start : String) : Bool := start.toList.isPrefixOf s.toList

/-- `strings.TrimPrefix`. -/
def trimPrefix (s start : String) : String :=
  if hasPrefix s start then String.ofList (s.toList.drop start.length) else s

def normalizeZipEntryPath (entryName : String) : Option String :=
  let sanitized := sanitizedEntryName entryName
  if sanitized = "" then none
  else if hasPrefix sanitized "/" then none
  else
    let cleanPath := clean sanitized
    if cleanPath = "." ∨ cleanPath = ".." ∨ hasPrefix cleanPath "../" then none else some cleanPath

def isSubPath (basePath targetPath : String) : Bool :=
  match rel basePath targetPath with
  | none => false
  | some relativePath => relativePath ≠ ".." && !hasPrefix relativePath "../"

def validateZipFileEntrySize (entry : ZipEntry) (maxBytes : Int) (message : String) :
    Except RestoreError Unit :=
  refuseIf (maxBytes < 0 ∨ maxBytes < entry.uncompressedSize) (.invalidBackup message)

def openError : ZipError → RestoreError
  | .password => .invalidPassword
  | .other => .invalidBackup "failed to extract assets from zip backup"

/-- An error of `SanitizeIconFile` is never the archive's own, so none of them is a password error. -/
def sanitizeRestoreAsset (images : ImageCodec) (entry : ZipEntry) (filename : String) (maxBytes : Nat) :
    Except RestoreError (List UInt8 × Nat) := do
  let source ← entry.opened.mapError openError
  let (sanitized, bytesRead) := sanitizeIconFile images source filename maxBytes
  let out ← sanitized.mapError fun _ => .invalidBackup "zip backup contains invalid asset image"
  return (out.1, bytesRead)

/-- What an entry is unpacked to. -/
structure Asset where
  targetPath : String
  content : List UInt8
  sourceSize : Nat

/-- The operating system around the restore: the data path, the random names
`os.MkdirTemp` tries, and the calls that fail, with what a failed write leaves. -/
structure RestoreOS where
  dataDir : String
  randoms : List Nat
  refuses : Nat → Bool
  torn : Nat → Option (List UInt8)

/-- `pkg.GetDataPath`: `DATA_PATH`, or `data` where it is not set. -/
def RestoreOS.getDataPath (os : RestoreOS) : String := if os.dataDir ≠ "" then os.dataDir else "data"

structure Extraction where
  disk : Disk
  /-- Where files were written, the latest last. -/
  written : List Position
  extractedSize : Int
  assetEntries : Nat

/-- The part of the loop body after the entry was found to be a file under `assets/`. -/
def restorableAsset (images : ImageCodec) (limits : BackupRestoreLimits)
    (tempAssetsDir relativePath : String) (extractedSize : Int) (assetEntries : Nat)
    (entry : ZipEntry) : Except RestoreError Asset := do
  refuseIf (!isRestorableAssetPath relativePath)
    (.invalidBackup "zip backup contains unsupported assets entry")
  refuseIf (!entry.mode.isRegular) (.invalidBackup "zip backup contains unsupported assets entry")
  refuseIf (limits.maxAssetEntries < assetEntries) (.invalidBackup "zip backup contains too many assets")
  let remainingSize := max (limits.maxAssetsExtractedSize - extractedSize) 0
  validateZipFileEntrySize entry remainingSize "zip backup assets exceed extracted size limit"
  let (sanitized, sourceSize) ← sanitizeRestoreAsset images entry (base relativePath) remainingSize.toNat
  let targetPath := join tempAssetsDir relativePath
  refuseIf (!isSubPath tempAssetsDir targetPath)
    (.invalidBackup "zip backup contains invalid assets path")
  return ⟨targetPath, sanitized, sourceSize⟩

/-- The checks of the loop body; none where the loop goes on to the next entry. -/
def assetToRestore (images : ImageCodec) (limits : BackupRestoreLimits) (tempAssetsDir : String)
    (st : Extraction) (entry : ZipEntry) : Except RestoreError (Option Asset) :=
  match normalizeZipEntryPath entry.name with
  | none => .error (.invalidBackup "zip backup contains unsafe paths")
  | some cleanPath =>
    if cleanPath = "assets" ∨ !hasPrefix cleanPath "assets/" then .ok none
    else
      let relativePath := trimPrefix cleanPath "assets/"
      if relativePath = "" then .ok none
      else if entry.mode.isDir then
        if relativePath = "icons" then .ok none
        else .error (.invalidBackup "zip backup contains unsupported assets entry")
      else
        (restorableAsset images limits tempAssetsDir relativePath st.extractedSize
          (st.assetEntries + 1) entry).map some

/-- `os.MkdirAll` and `os.WriteFile` of the loop body: calls `2 n` and `2 n + 1`, the asset being
the `n`th. -/
def storeAsset (os : RestoreOS) (asset : Asset) (st : Extraction) : Option RestoreError × Extraction :=
  let n := st.assetEntries + 1
  let target := position asset.targetPath
  match if os.refuses (2 * n) then none else st.disk.mkdirAll (position (dir asset.targetPath)) with
  | none => (some .os, st)
  | some disk =>
    let content := if os.refuses (2 * n + 1) then os.torn n else some asset.content
    match content.bind (disk.writeFile target) with
    | none => (some (.invalidBackup "failed to extract assets from zip backup"), { st with disk })
    | some disk' =>
      let st' : Extraction := ⟨disk', st.written ++ [target], st.extractedSize + asset.sourceSize, n⟩
      if os.refuses (2 * n + 1) then
        (some (.invalidBackup "failed to extract assets from zip backup"), st')
      else (none, st')

def extractEntries (images : ImageCodec) (os : RestoreOS) (limits : BackupRestoreLimits)
    (tempAssetsDir : String) :
    List ZipEntry → Extraction → Option RestoreError × Extraction
  | [], st => (none, st)
  | entry :: entries, st =>
    match assetToRestore images limits tempAssetsDir st entry with
    | .error err => (some err, st)
    | .ok none => extractEntries images os limits tempAssetsDir entries st
    | .ok (some asset) =>
      match storeAsset os asset st with
      | (some err, st') => (some err, st')
      | (none, st') => extractEntries images os limits tempAssetsDir entries st'

/-- How the extraction ends: the directory of the assets (none where the archive has no assets) and
the disk; beside them the temporary directory it made and where it wrote files. -/
structure Extracted where
  result : Except RestoreError (Option String)
  disk : Disk
  tempDir : Option String
  written : List Position

/-- `os.MkdirTemp(dataDir, ".subdux-restore-assets-*")`: the first name that is free. -/
def mkdirTempAssets (os : RestoreOS) (disk : Disk) : Option (String × Disk) :=
  os.randoms.findSome? fun n =>
    let name := ".subdux-restore-assets-" ++ toString n
    let path := joinPath os.getDataPath name
    (disk.mkdir (position path)).map fun disk' => (path, disk')

def shouldRestoreAssets (entries : List ZipEntry) : Bool :=
  entries.any fun entry =>
    match normalizeZipEntryPath entry.name with
    | none => false
    | some cleanPath => cleanPath = "assets" || hasPrefix cleanPath "assets/"

def extractAssetsFromZip (images : ImageCodec) (os : RestoreOS) (limits : BackupRestoreLimits)
    (disk : Disk) (entries : List ZipEntry) : Extracted :=
  if !shouldRestoreAssets entries then ⟨.ok none, disk, none, []⟩
  else
    match if os.refuses 0 then none else disk.mkdirAll (position os.getDataPath) with
    | none => ⟨.error .os, disk, none, []⟩
    | some dataDisk =>
      match if os.refuses 1 then none else mkdirTempAssets os dataDisk with
      | none => ⟨.error .os, dataDisk, none, []⟩
      | some (tempAssetsDir, tempDisk) =>
        match extractEntries images os limits tempAssetsDir entries ⟨tempDisk, [], 0, 0⟩ with
        | (some err, st) =>
          ⟨.error err, st.disk.removeAll (position tempAssetsDir), some tempAssetsDir, st.written⟩
        | (none, st) => ⟨.ok (some tempAssetsDir), st.disk, some tempAssetsDir, st.written⟩

/-! ## Where an entry's name leads -/

/-- Where the entry's normalised path leads. -/
def ZipEntry.position (entry : ZipEntry) : Position := GoPath.position (sanitizedEntryName entry.name)

theorem hasPrefix_iff {s start : String} : hasPrefix s start = true ↔ start.toList <+: s.toList :=
  List.isPrefixOf_iff_prefix

theorem hasPrefix_slash (s : String) : hasPrefix s "/" = isAbs s := by
  rw [Bool.eq_iff_iff, hasPrefix_iff, isAbs, decide_eq_true_eq]
  cases s.toList <;> simp [eq_comm]

/-- A path starts with the element `e`: it is `e` or has the prefix `e/`. -/
theorem starts_iff {s e : String} (he : '/' ∉ e.toList) :
    (s = e ∨ hasPrefix s (e ++ "/") = true) ↔ (elements s).head? = some e.toList := by
  rw [head_elements_iff he, hasPrefix_iff, String.toList_append, String.toList_inj]
  rfl

/-- What `normalizeZipEntryPath` accepts is below the archive's root, and it gives the way there. -/
theorem normalizeZipEntryPath_eq (entry : ZipEntry) :
    normalizeZipEntryPath entry.name =
      if entry.position.rooted = true ∨ 0 < entry.position.ups ∨ entry.position.down = [] then none
      else some entry.position.render := by
  have hrooted : entry.position.rooted = isAbs (sanitizedEntryName entry.name) := position_rooted _
  have hdotdot := (starts_iff (s := clean (sanitizedEntryName entry.name)) (e := "..") (by decide)).trans
    (head_clean_eq_dotdot (sanitizedEntryName entry.name))
  have hdot : clean (sanitizedEntryName entry.name) = "." ↔ entry.position = here := clean_eq_iff _ "."
  have hblank : sanitizedEntryName entry.name = "" → entry.position.down = [] := fun h => by
    rw [ZipEntry.position, h]
    rfl
  have hhere : entry.position = here ↔ entry.position.rooted = false ∧ entry.position.ups = 0 ∧
      entry.position.down = [] := by
    rw [Position.ext_iff]
    rfl
  rw [normalizeZipEntryPath]
  by_cases hempty : sanitizedEntryName entry.name = ""
  · rw [if_pos hempty, if_pos (.inr (.inr (hblank hempty)))]
  rw [if_neg hempty]
  by_cases habs : entry.position.rooted = true
  · rw [if_pos (by rwa [hasPrefix_slash, ← hrooted]), if_pos (.inl habs)]
  rw [if_neg (by rwa [hasPrefix_slash, ← hrooted])]
  -- what is left: a relative path, refused when it leads up or nowhere
  have hcond : (clean (sanitizedEntryName entry.name) = "." ∨
      clean (sanitizedEntryName entry.name) = ".." ∨
      hasPrefix (clean (sanitizedEntryName entry.name)) "../" = true) ↔
      (entry.position.rooted = true ∨ 0 < entry.position.ups ∨ entry.position.down = []) := by
    have hups : (clean (sanitizedEntryName entry.name) = ".." ∨
        hasPrefix (clean (sanitizedEntryName entry.name)) "../" = true) ↔
          0 < entry.position.ups := hdotdot
    rw [Bool.not_eq_true] at habs
    rw [hups, hdot, hhere]
    constructor
    · rintro (⟨_, _, h⟩ | h)
      · exact .inr (.inr h)
      · exact .inr (.inl h)
    · rintro (h | h | h)
      · exact absurd h (by simp [habs])
      · exact .inr h
      · rcases Nat.eq_zero_or_pos entry.position.ups with hzero | hpos
        · exact .inl ⟨habs, hzero, h⟩
        · exact .inr hpos
  exact if_congr hcond rfl rfl

/-- The entry's path leads out of the archive. -/
def ZipEntry.LeavesRoot (entry : ZipEntry) : Prop :=
  entry.position.rooted = true ∨ 0 < entry.position.ups

/-- The entry's path stays in the archive and leads to its `assets` directory or below it, by the
names `rest`. -/
def ZipEntry.InAssets (entry : ZipEntry) (rest : List (List Char)) : Prop :=
  entry.position.rooted = false ∧ entry.position.ups = 0 ∧ entry.position.down = "assets".toList :: rest

instance (entry : ZipEntry) : Decidable entry.LeavesRoot := inferInstanceAs (Decidable (_ ∨ _))

instance (entry : ZipEntry) (rest : List (List Char)) : Decidable (entry.InAssets rest) :=
  inferInstanceAs (Decidable (_ ∧ _))

/-- The names lead to an icon: a file name with an icon's extension, in the directory `icons`. -/
def IsIconPath (names : List (List Char)) : Prop :=
  ∃ filename, names = ["icons".toList, filename] ∧
    isIconExtension (toLower (ext (String.ofList filename))) = true

/-- What the code accepts under `assets`: the directory itself, the directory `icons` and the icons. -/
def ZipEntry.Restorable (entry : ZipEntry) (rest : List (List Char)) : Prop :=
  rest = [] ∨ (entry.mode.isDir = true ∧ rest = ["icons".toList]) ∨
    (entry.mode.isRegular = true ∧ IsIconPath rest)

/-! ## One entry -/

section
variable {images : ImageCodec} {os : RestoreOS} {limits : BackupRestoreLimits}
  {tempAssetsDir : String} {st st' : Extraction}
  {entry : ZipEntry} {rest : List (List Char)}

theorem InAssets_elements (h : entry.InAssets rest) :
    elements entry.position.render = "assets".toList :: rest := by
  obtain ⟨hrooted, hups, hdown⟩ := h
  have helems : entry.position.elems = "assets".toList :: rest := by
    rw [Position.elems, hups, hdown]
    rfl
  rw [elements_of_not_rooted hrooted (by simp [helems]), helems]

theorem InAssets_normalize (h : entry.InAssets rest) :
    normalizeZipEntryPath entry.name = some entry.position.render := by
  obtain ⟨hrooted, hups, hdown⟩ := h
  rw [normalizeZipEntryPath_eq, if_neg]
  rintro (hr | hr | hr)
  · simp [hrooted] at hr
  · omega
  · simp [hdown] at hr

/-- The path an accepted entry under `assets` has relative to that directory. -/
theorem InAssets_relative (h : entry.InAssets rest) (hrest : rest ≠ []) :
    hasPrefix entry.position.render "assets/" = true ∧
      elements (trimPrefix entry.position.render "assets/") = rest := by
  have helements := InAssets_elements h
  have htext : entry.position.render.toList = "assets/".toList ++ ['/'].intercalate rest := by
    obtain ⟨y, ys, rfl⟩ := List.exists_cons_of_ne_nil hrest
    have hback : ['/'].intercalate (elements entry.position.render) = entry.position.render.toList :=
      List.intercalate_splitOn '/'
    rw [← hback, helements, List.intercalate_cons_cons]
    rfl
  have hstart : hasPrefix entry.position.render "assets/" = true := hasPrefix_iff.2 ⟨_, htext.symm⟩
  have hno : ∀ e ∈ rest, '/' ∉ e := fun e he =>
    (entry.position.names e (by rw [h.2.2]; exact List.mem_cons_of_mem _ he)).no_slash
  refine ⟨hstart, ?_⟩
  have hlen : "assets/".length = "assets/".toList.length := rfl
  rw [trimPrefix, if_pos hstart, elements, String.toList_ofList, htext, hlen, List.drop_left,
    List.splitOn_intercalate '/' hno hrest]

theorem isRestorableAssetPath_iff {relativePath : String}
    (hnames : ∀ e ∈ elements relativePath, IsName e) :
    isRestorableAssetPath relativePath = true ↔ IsIconPath (elements relativePath) := by
  rw [isRestorableAssetPath]
  split
  · rename_i folder filename helements
    have hname : IsName filename := hnames filename (by simp [helements])
    rw [helements]
    simp only [Bool.and_eq_true, decide_eq_true_eq, base_name hname, and_true]
    constructor
    · rintro ⟨⟨rfl, -⟩, hext⟩
      exact ⟨filename, rfl, hext⟩
    · rintro ⟨name, heq, hext⟩
      obtain ⟨rfl, rfl⟩ : folder = "icons".toList ∧ filename = name := by simpa using heq
      exact ⟨⟨rfl, hname.nonempty⟩, hext⟩
  · rename_i hother
    constructor
    · intro h
      cases h
    · rintro ⟨name, heq, -⟩
      exact absurd heq (hother _ _)

theorem InAssets_names (h : entry.InAssets rest) : ∀ e ∈ rest, IsName e := fun e he =>
  entry.position.names e (by rw [h.2.2]; exact List.mem_cons_of_mem _ he)

/-- The prefix tests of the source find the entries that lead into `assets`. -/
theorem inAssets_iff (h : (normalizeZipEntryPath entry.name).isSome = true) :
    (entry.position.render = "assets" ∨ hasPrefix entry.position.render "assets/" = true) ↔
    ∃ rest, entry.InAssets rest := by
  rw [normalizeZipEntryPath_eq] at h
  split at h
  · cases h
  · rename_i hbelow
    push Not at hbelow
    obtain ⟨hrooted, hups, hdown⟩ := hbelow
    rw [ne_eq, Bool.not_eq_true] at hrooted
    have hzero : entry.position.ups = 0 := by omega
    have helems : entry.position.elems = entry.position.down := by
      rw [Position.elems, hzero, List.replicate_zero, List.nil_append]
    have hstarts := starts_iff (s := entry.position.render) (e := "assets") (by decide)
    rw [elements_of_not_rooted hrooted (helems ▸ hdown), helems, List.head?_eq_some_iff] at hstarts
    refine hstarts.trans ⟨?_, ?_⟩
    · rintro ⟨rest, hrest⟩
      exact ⟨rest, hrooted, hzero, hrest⟩
    · rintro ⟨rest, -, -, hrest⟩
      exact ⟨rest, hrest⟩

theorem assetToRestore_leavesRoot (h : entry.LeavesRoot) :
    assetToRestore images limits tempAssetsDir st entry = .error
    (.invalidBackup "zip backup contains unsafe paths") := by
  rw [assetToRestore, normalizeZipEntryPath_eq, if_pos]
  rcases h with h | h
  · exact .inl h
  · exact .inr (.inl h)

/-- Below `assets` the loop body judges the entry by its names. -/
theorem assetToRestore_inAssets (h : entry.InAssets rest) (hrest : rest ≠ []) :
    assetToRestore images limits tempAssetsDir st entry =
      if entry.mode.isDir then
        if rest = ["icons".toList] then .ok none
        else .error (.invalidBackup "zip backup contains unsupported assets entry")
      else
        (restorableAsset images limits tempAssetsDir
          (trimPrefix entry.position.render "assets/") st.extractedSize
          (st.assetEntries + 1) entry).map some := by
  obtain ⟨hstart, helements⟩ := InAssets_relative h hrest
  have hne : entry.position.render ≠ "assets" := by
    intro heq
    have hsingle := InAssets_elements h
    rw [heq] at hsingle
    exact hrest (List.cons.inj hsingle).2.symm
  have hblank : trimPrefix entry.position.render "assets/" ≠ "" := by
    intro heq
    rw [heq] at helements
    exact (InAssets_names h [] (by rw [← helements]; exact List.mem_cons_self)).nonempty rfl
  have hicons : trimPrefix entry.position.render "assets/" = "icons" ↔ rest = ["icons".toList] := by
    constructor
    · intro heq
      rw [heq] at helements
      exact helements.symm
    · intro heq
      have hback : ['/'].intercalate (elements (trimPrefix entry.position.render "assets/")) =
          (trimPrefix entry.position.render "assets/").toList := List.intercalate_splitOn '/'
      rw [helements, heq] at hback
      exact String.toList_inj.1 hback.symm
  rw [assetToRestore, InAssets_normalize h]
  simp only [hne, hstart, Bool.not_true, Bool.false_eq_true, or_self, if_false, hblank]
  exact if_congr Iff.rfl (if_congr hicons rfl rfl) rfl

theorem restorableAsset_ok {relativePath : String} {extractedSize : Int} {assetEntries : Nat}
    {asset : Asset} (h : restorableAsset images limits tempAssetsDir relativePath extractedSize
      assetEntries entry = .ok asset) :
    isRestorableAssetPath relativePath = true ∧ entry.mode.isRegular = true ∧
      asset.targetPath = join tempAssetsDir relativePath := by
  obtain ⟨_, hpath, h⟩ := bind_eq_ok h
  obtain ⟨_, hmode, h⟩ := bind_eq_ok h
  obtain ⟨_, _, h⟩ := bind_eq_ok h
  obtain ⟨_, _, h⟩ := bind_eq_ok h
  obtain ⟨_, _, h⟩ := bind_eq_ok h
  obtain ⟨_, _, h⟩ := bind_eq_ok h
  obtain rfl := Except.ok.inj h
  exact ⟨by simpa using refuseIf_ok hpath, by simpa using refuseIf_ok hmode, rfl⟩

/-- An entry that leads out of the archive, or to something under `assets` that is not restored,
ends the loop. -/
theorem assetToRestore_refuses (h : entry.LeavesRoot ∨ entry.InAssets rest ∧ ¬ entry.Restorable rest) :
    ∃ err, assetToRestore images limits tempAssetsDir st entry = .error err := by
  rcases h with h | ⟨hassets, hforeign⟩
  · exact ⟨_, assetToRestore_leavesRoot h⟩
  rw [ZipEntry.Restorable] at hforeign
  push Not at hforeign
  obtain ⟨hrest, hfolder, hicon⟩ := hforeign
  rw [assetToRestore_inAssets hassets hrest]
  split
  · rename_i hdir
    rw [if_neg (hfolder hdir)]
    exact ⟨_, rfl⟩
  · cases hasset : restorableAsset images limits tempAssetsDir
      (trimPrefix entry.position.render "assets/") st.extractedSize
      (st.assetEntries + 1) entry with
    | error err => exact ⟨err, rfl⟩
    | ok asset =>
      obtain ⟨hpath, hregular, -⟩ := restorableAsset_ok hasset
      have helements := (InAssets_relative hassets hrest).2
      have hnames := InAssets_names hassets
      rw [isRestorableAssetPath_iff (helements ▸ hnames), helements] at hpath
      exact absurd hpath (hicon hregular)

/-- A path of names joined below a directory passes `isSubPath`, so the loop's last check refuses
nothing. -/
theorem isSubPath_join {dir relativePath : String} (hdir : dir ≠ "")
    (hnames : ∀ e ∈ elements relativePath, IsName e) :
    isSubPath dir (join dir relativePath) = true := by
  have hne : elements relativePath ≠ [] := List.splitOn_ne_nil _ _
  have hback : String.ofList (['/'].intercalate (elements relativePath)) = relativePath := by
    rw [elements, List.intercalate_splitOn, String.ofList_toList]
  rw [isSubPath, rel_within hne (position_join_names hdir hnames), hback]
  have hhead : (elements relativePath).head? ≠ some dotdot := fun h =>
    (hnames dotdot (List.mem_of_mem_head? h)).ne_dotdot rfl
  have hstarts := (not_congr (starts_iff (s := relativePath) (e := "..") (by decide))).2 hhead
  push Not at hstarts
  have hstart : hasPrefix relativePath "../" = false := by
    rw [← Bool.not_eq_true]
    exact hstarts.2
  simp [hstarts.1, hstart]

/-- What is unpacked goes to an icon's name in the directory `icons` of the temporary directory. -/
theorem assetToRestore_asset {asset : Asset} (htemp : tempAssetsDir ≠ "")
    (h : assetToRestore images limits tempAssetsDir st entry = .ok (some asset)) :
    ∃ (names : List (List Char)) (hnames : ∀ e ∈ names, IsName e), IsIconPath names ∧
      asset.targetPath = ((position tempAssetsDir).within names hnames).render := by
  have hsome : (normalizeZipEntryPath entry.name).isSome = true := by
    rw [assetToRestore] at h
    cases hnormalize : normalizeZipEntryPath entry.name with
    | none => simp [hnormalize] at h
    | some cleanPath => rfl
  by_cases hassets : ∃ rest, entry.InAssets rest
  · obtain ⟨rest, hassets⟩ := hassets
    by_cases hrest : rest = []
    · have hclean : entry.position.render = "assets" := by
        have hback : ['/'].intercalate (elements entry.position.render) = entry.position.render.toList :=
          List.intercalate_splitOn '/'
        rw [InAssets_elements hassets, hrest] at hback
        exact String.toList_inj.1 hback.symm
      rw [assetToRestore, InAssets_normalize hassets] at h
      simp [hclean] at h
    · rw [assetToRestore_inAssets hassets hrest] at h
      split at h
      · split at h <;> simp at h
      · obtain ⟨asset', hok, heq⟩ := map_eq_ok h
        obtain rfl := Option.some.inj heq
        obtain ⟨hpath, -, htarget⟩ := restorableAsset_ok hok
        have helements := (InAssets_relative hassets hrest).2
        have hnames : ∀ e ∈ elements (trimPrefix entry.position.render "assets/"), IsName e :=
          helements ▸ InAssets_names hassets
        refine ⟨_, hnames, (isRestorableAssetPath_iff hnames).1 hpath, ?_⟩
        rw [htarget, ← position_join_names htemp hnames, join, if_pos htemp, position_clean]
        rfl
  · rw [← inAssets_iff hsome] at hassets
    push Not at hassets
    have hnormalize : normalizeZipEntryPath entry.name = some entry.position.render := by
      rw [normalizeZipEntryPath_eq] at hsome ⊢
      split at hsome
      · cases hsome
      · rw [if_neg (by assumption)]
    rw [assetToRestore, hnormalize] at h
    simp [hassets.2] at h

/-! ## The loop -/

/-- The position is an icon's in the directory `icons` below `temp`. -/
def IsIconIn (temp p : Position) : Prop :=
  ∃ (names : List (List Char)) (hnames : ∀ e ∈ names, IsName e), IsIconPath names ∧
    p = temp.within names hnames

/-- The loop works below the temporary directory only, and logs what it writes. -/
structure Contained (temp : Position) (before : Disk) (st : Extraction) : Prop where
  outside : Disk.SameOutside temp before st.disk
  way : ∀ a ∈ Disk.ancestors temp, a ∈ st.disk.dirs
  icons : ∀ p ∈ st.written, IsIconIn temp p
  logged : ∀ f ∈ st.disk.files, f ∈ before.files ∨ f.1 ∈ st.written

variable {temp : Position} {before disk' : Disk}

theorem Contained.mkdirAll {p : Position} (h : Contained temp before st)
    (hp : Disk.isUnder temp p = true) (hdisk : st.disk.mkdirAll p = some disk') :
    Contained temp before { st with disk := disk' } where
  outside := h.outside.trans (Disk.mkdirAll_sameOutside h.way hp hdisk)
  way := fun a ha => Disk.mkdirAll_dirs hdisk (h.way a ha)
  icons := h.icons
  logged := fun f hf => h.logged f (Disk.mkdirAll_files hdisk ▸ hf)

theorem Contained.writeFile {p : Position} {content : List UInt8} (h : Contained temp before st)
    (hp : IsIconIn temp p) (hdisk : st.disk.writeFile p content = some disk') (size : Int) (n : Nat) :
    Contained temp before ⟨disk', st.written ++ [p], size, n⟩ where
  outside := by
    obtain ⟨names, hnames, -, hat⟩ := hp
    exact h.outside.trans (Disk.writeFile_sameOutside (hat ▸ Disk.isUnder_within hnames) hdisk)
  way := fun a ha => Disk.writeFile_dirs hdisk ▸ h.way a ha
  icons := fun q hq => (List.mem_append.1 hq).elim (h.icons q) fun heq => List.mem_singleton.1 heq ▸ hp
  logged := fun f hf => by
    rcases Disk.mem_files_writeFile hdisk hf with hold | hnew
    · exact (h.logged f hold).imp_right fun hlog => List.mem_append_left _ hlog
    · exact .inr (List.mem_append_right _ (List.mem_singleton.2 hnew))

theorem Contained.storeAsset (os : RestoreOS) {asset : Asset} {names : List (List Char)}
    (hnames : ∀ e ∈ names, IsName e) (hicon : IsIconPath names)
    (htarget : asset.targetPath = (temp.within names hnames).render)
    (h : Contained temp before st) : Contained temp before (storeAsset os asset st).2 := by
  have hne : names ≠ [] := by
    obtain ⟨filename, heq, -⟩ := hicon
    rw [heq]
    exact List.cons_ne_nil _ _
  have hdir : Disk.isUnder temp (position (dir (temp.within names hnames).render)) = true :=
    Disk.isUnder_dir hnames hne
  have hin : IsIconIn temp (position asset.targetPath) :=
    ⟨names, hnames, hicon, by rw [htarget, position_render]⟩
  rw [← htarget] at hdir
  rw [Subdux.storeAsset]
  simp only
  split
  · exact h
  · rename_i disk hmkdir
    split at hmkdir
    · cases hmkdir
    have hmade := h.mkdirAll hdir hmkdir
    split
    · exact hmade
    · rename_i disk' hwrite
      obtain ⟨content, -, hwrite⟩ := Option.bind_eq_some_iff.1 hwrite
      have hwritten := hmade.writeFile hin hwrite
      split
      · exact hwritten _ _
      · exact hwritten _ _

theorem extractEntries_contained (images : ImageCodec) (os : RestoreOS) (limits : BackupRestoreLimits)
    (htemp : tempAssetsDir ≠ "") :
    ∀ (entries : List ZipEntry) {st : Extraction}, Contained (position tempAssetsDir) before st →
      Contained (position tempAssetsDir) before
        (extractEntries images os limits tempAssetsDir entries st).2
  | [], _, h => h
  | entry :: entries, st, h => by
    rw [extractEntries]
    cases hbody : assetToRestore images limits tempAssetsDir st entry with
    | error err => exact h
    | ok found =>
      cases found with
      | none => exact extractEntries_contained images os limits htemp entries h
      | some asset =>
        obtain ⟨names, hnames, hicon, htarget⟩ := assetToRestore_asset htemp hbody
        have hstored := h.storeAsset os hnames hicon htarget
        simp only
        split
        · rename_i heq
          rw [heq] at hstored
          exact hstored
        · rename_i heq
          rw [heq] at hstored
          exact extractEntries_contained images os limits htemp entries hstored

/-- An entry whose checks fail in every state of the loop fails the extraction. -/
theorem extractEntries_refuses (os : RestoreOS)
    (hbad : ∀ st, ∃ err, assetToRestore images limits tempAssetsDir st entry = .error err) :
    ∀ {entries : List ZipEntry} (st : Extraction), entry ∈ entries →
      ∃ err, (extractEntries images os limits tempAssetsDir entries st).1 = some err
  | first :: entries, st, hmem => by
    rw [extractEntries]
    cases hbody : assetToRestore images limits tempAssetsDir st first with
    | error err => exact ⟨err, rfl⟩
    | ok found =>
      have hrest : entry ∈ entries := by
        rcases List.mem_cons.1 hmem with rfl | hrest
        · obtain ⟨err, herr⟩ := hbad st
          rw [hbody] at herr
          cases herr
        · exact hrest
      cases found with
      | none => exact extractEntries_refuses os hbad st hrest
      | some asset =>
        simp only
        split
        · exact ⟨_, rfl⟩
        · rename_i st' _
          exact extractEntries_refuses os hbad st' hrest

/-! ## The whole extraction -/

theorem shouldRestoreAssets_iff {entries : List ZipEntry} :
    shouldRestoreAssets entries = true ↔ ∃ e ∈ entries, ∃ rest, e.InAssets rest := by
  rw [shouldRestoreAssets, List.any_eq_true]
  refine exists_congr fun e => and_congr_right fun _ => ?_
  cases hsome : (normalizeZipEntryPath e.name).isSome with
  | false =>
    rw [Option.isSome_eq_false_iff, Option.isNone_iff_eq_none] at hsome
    constructor
    · intro h
      rw [hsome] at h
      cases h
    · rintro ⟨rest, hrest⟩
      rw [InAssets_normalize hrest] at hsome
      cases hsome
  | true =>
    rw [← inAssets_iff hsome, normalizeZipEntryPath_eq] at *
    split at hsome
    · cases hsome
    · rename_i hbelow
      simp [hbelow]

theorem isName_tempAssets (n : Nat) : IsName (".subdux-restore-assets-" ++ toString n).toList := by
  have htext : (".subdux-restore-assets-" ++ toString n).toList =
      '.' :: 's' :: ("ubdux-restore-assets-".toList ++ (toString n).toList) := String.toList_append
  rw [htext]
  constructor
  · exact List.cons_ne_nil _ _
  · simp [dot]
  · simp [dotdot]
  · intro h
    have hrest : '/' ∈ (toString n).toList := by simpa using h
    exact slash_not_mem_toString n hrest

/-- `os.MkdirTemp` makes a directory that was free, right below the data path. -/
theorem mkdirTempAssets_spec {dataDisk tempDisk : Disk}
    (h : mkdirTempAssets os dataDisk = some (tempAssetsDir, tempDisk)) :
    tempAssetsDir ≠ "" ∧ dataDisk.mkdir (position tempAssetsDir) = some tempDisk ∧
      ∃ name, ∃ hname : IsName name, position tempAssetsDir =
        (position os.getDataPath).enter name hname := by
  obtain ⟨n, -, hn⟩ := List.exists_of_findSome?_eq_some h
  obtain ⟨disk, hmkdir, heq⟩ := Option.map_eq_some_iff.1 hn
  obtain ⟨rfl, rfl⟩ := Prod.mk.inj heq
  have hdata : os.getDataPath ≠ "" := by
    rw [RestoreOS.getDataPath]
    split
    · assumption
    · decide
  refine ⟨?_, hmkdir, _, isName_tempAssets n, position_joinPath hdata (isName_tempAssets n)⟩
  rw [joinPath]
  split <;> simp

/-- The extraction before its loop, and what the loop starts from. -/
theorem extraction_start {dataDisk tempDisk : Disk}
    (hdata : disk'.mkdirAll (position os.getDataPath) = some dataDisk)
    (htemp : mkdirTempAssets os dataDisk = some (tempAssetsDir, tempDisk)) :
    Contained (position tempAssetsDir) dataDisk ⟨tempDisk, [], 0, 0⟩ := by
  obtain ⟨-, hmkdir, name, hname, hat⟩ := mkdirTempAssets_spec htemp
  have hdirs := Disk.mkdir_dirs hmkdir
  constructor
  · exact Disk.mkdir_sameOutside hmkdir
  · intro a ha
    show a ∈ tempDisk.dirs
    rw [hdirs]
    rw [hat] at ha ⊢
    rcases Disk.mem_ancestors_enter hname ha with hparent | rfl
    · exact List.mem_append_left _ (Disk.mkdirAll_ancestors hdata hparent)
    · exact List.mem_append_right _ (List.mem_singleton.2 rfl)
  · simp
  · intro f hf
    exact .inl (Disk.mkdir_files hmkdir ▸ hf)

end

/-- How an extraction can go: the archive has no assets, the temporary directory cannot be made, or
the loop runs in it. -/
inductive Outcome (images : ImageCodec) (os : RestoreOS) (limits : BackupRestoreLimits) (disk : Disk)
    (entries : List ZipEntry) : Extracted → Prop where
  | noAssets (h : shouldRestoreAssets entries = false) : Outcome images os limits disk entries
    ⟨.ok none, disk, none, []⟩
  | noDirectory (disk' : Disk) (h : disk'.files = disk.files) :
      Outcome images os limits disk entries ⟨.error .os, disk', none, []⟩
  | unpacked (tempAssetsDir : String) (dataDisk tempDisk : Disk) (st : Extraction)
      (hdata : disk.mkdirAll (position os.getDataPath) = some dataDisk)
      (htemp : mkdirTempAssets os dataDisk = some (tempAssetsDir, tempDisk))
      (hloop : extractEntries images os limits tempAssetsDir entries ⟨tempDisk, [], 0, 0⟩ = (none, st)) :
      Outcome images os limits disk entries
        ⟨.ok (some tempAssetsDir), st.disk, some tempAssetsDir, st.written⟩
  | refused (tempAssetsDir : String) (dataDisk tempDisk : Disk) (err : RestoreError) (st : Extraction)
      (hdata : disk.mkdirAll (position os.getDataPath) = some dataDisk)
      (htemp : mkdirTempAssets os dataDisk = some (tempAssetsDir, tempDisk))
      (hloop : extractEntries images os limits tempAssetsDir entries ⟨tempDisk, [], 0, 0⟩ =
        (some err, st)) :
      Outcome images os limits disk entries
        ⟨.error err, st.disk.removeAll (position tempAssetsDir), some tempAssetsDir, st.written⟩

theorem extractAssetsFromZip_outcome (images : ImageCodec) (os : RestoreOS)
    (limits : BackupRestoreLimits) (disk : Disk) (entries : List ZipEntry) :
    Outcome images os limits disk entries (extractAssetsFromZip images os limits disk entries) := by
  rw [extractAssetsFromZip]
  split
  · rename_i hnone
    exact .noAssets (by simpa using hnone)
  split
  · exact .noDirectory disk rfl
  rename_i dataDisk hdata
  split at hdata
  · cases hdata
  split
  · exact .noDirectory dataDisk (Disk.mkdirAll_files hdata)
  rename_i tempAssetsDir tempDisk htemp
  split at htemp
  · cases htemp
  split
  · rename_i err st hloop
    exact .refused tempAssetsDir dataDisk tempDisk err st hdata htemp hloop
  · rename_i st hloop
    exact .unpacked tempAssetsDir dataDisk tempDisk st hdata htemp hloop

/-- Whatever the archive, the disk loses no file and gains only those the log names. -/
theorem Outcome.contained {images : ImageCodec} {os : RestoreOS} {limits : BackupRestoreLimits}
    {disk : Disk} {entries : List ZipEntry} {out : Extracted}
    (h : Outcome images os limits disk entries out) :
    (∀ p ∈ out.written, ∃ temp, out.tempDir = some temp ∧ IsIconIn (position temp) p) ∧
      ∀ f ∈ out.disk.files, f ∈ disk.files ∨ f.1 ∈ out.written := by
  cases h with
  | noAssets => exact ⟨by simp, fun f hf => .inl hf⟩
  | noDirectory disk' hfiles => exact ⟨by simp, fun f hf => .inl (hfiles ▸ hf)⟩
  | unpacked tempAssetsDir dataDisk tempDisk st hdata htemp hloop =>
    have hrun := extractEntries_contained images os limits (mkdirTempAssets_spec htemp).1 entries
      (extraction_start hdata htemp)
    rw [hloop] at hrun
    exact ⟨fun p hp => ⟨tempAssetsDir, rfl, hrun.icons p hp⟩, fun f hf =>
      Disk.mkdirAll_files hdata ▸ hrun.logged f hf⟩
  | refused tempAssetsDir dataDisk tempDisk err st hdata htemp hloop =>
    have hrun := extractEntries_contained images os limits (mkdirTempAssets_spec htemp).1 entries
      (extraction_start hdata htemp)
    rw [hloop] at hrun
    exact ⟨fun p hp => ⟨tempAssetsDir, rfl, hrun.icons p hp⟩,
      fun f hf => Disk.mkdirAll_files hdata ▸ hrun.logged f (List.mem_filter.1 hf).1⟩

/-- A rejected archive leaves the files as they were and no temporary directory. -/
theorem Outcome.cleaned {images : ImageCodec} {os : RestoreOS} {limits : BackupRestoreLimits}
    {disk : Disk} {entries : List ZipEntry} {out : Extracted}
    (h : Outcome images os limits disk entries out) {err : RestoreError}
    (herr : out.result = .error err) :
    out.disk.files = disk.files ∧ ∀ temp, out.tempDir = some temp →
    out.disk.occupied (position temp) = false := by
  cases h with
  | noAssets => cases herr
  | noDirectory disk' hfiles => exact ⟨hfiles, by simp⟩
  | unpacked => cases herr
  | refused tempAssetsDir dataDisk tempDisk err st hdata htemp hloop =>
    obtain ⟨hne, hmkdir, -⟩ := mkdirTempAssets_spec htemp
    have hrun := extractEntries_contained images os limits hne entries (extraction_start hdata htemp)
    rw [hloop] at hrun
    have hback := hrun.outside.removeAll (Disk.mkdir_free hmkdir)
    constructor
    · show (st.disk.removeAll (position tempAssetsDir)).files = disk.files
      rw [hback, Disk.mkdirAll_files hdata]
    · rintro temp ⟨⟩
      exact Disk.occupied_removeAll _ _

theorem Outcome.rejected {images : ImageCodec} {os : RestoreOS} {limits : BackupRestoreLimits}
    {disk : Disk} {entries : List ZipEntry} {out : Extracted}
    (h : Outcome images os limits disk entries out) (hassets : ∃ e ∈ entries, ∃ rest, e.InAssets rest)
    (hbad : ∃ e ∈ entries, e.LeavesRoot ∨ ∃ rest, e.InAssets rest ∧ ¬ e.Restorable rest) :
    ∃ err, out.result = .error err := by
  obtain ⟨entry, hentry, hbad⟩ := hbad
  have hbody : ∀ temp st, ∃ err, assetToRestore images limits temp st entry = .error err := by
    intro temp st
    rcases hbad with hleaves | ⟨rest, hforeign⟩
    · exact ⟨_, assetToRestore_leavesRoot hleaves⟩
    · exact assetToRestore_refuses (.inr hforeign)
  cases h with
  | noAssets hnone =>
    rw [shouldRestoreAssets_iff.2 hassets] at hnone
    cases hnone
  | noDirectory => exact ⟨_, rfl⟩
  | refused => exact ⟨_, rfl⟩
  | unpacked tempAssetsDir dataDisk tempDisk st hdata htemp hloop =>
    obtain ⟨err, herr⟩ := extractEntries_refuses os (hbody tempAssetsDir) ⟨tempDisk, [], 0, 0⟩ hentry
    rw [hloop] at herr
    cases herr

/-- Restored assets stay in the icon directory. Every file the extraction writes has an icon's name
in the directory `icons` of the temporary directory. An archive with an assets entry is rejected
when an entry leads out of the archive, or leads to something under `assets` other than that
directory, the directory `icons` or an icon in it; the files on the disk are then what they were and
the temporary directory is gone. -/
theorem restored_assets_in_icons (images : ImageCodec) (os : RestoreOS)
    (limits : BackupRestoreLimits) (disk : Disk) (entries : List ZipEntry) :
    let out := extractAssetsFromZip images os limits disk entries
    (∀ p ∈ out.written, ∃ temp, out.tempDir = some temp ∧ IsIconIn (position temp) p) ∧
    (∀ f ∈ out.disk.files, f ∈ disk.files ∨ f.1 ∈ out.written) ∧
    ((∃ e ∈ entries, ∃ rest, e.InAssets rest) →
      (∃ e ∈ entries, e.LeavesRoot ∨ ∃ rest, e.InAssets rest ∧ ¬ e.Restorable rest) →
      (∃ err, out.result = .error err) ∧ out.disk.files = disk.files ∧
        ∀ temp, out.tempDir = some temp → out.disk.occupied (position temp) = false) := by
  have houtcome := extractAssetsFromZip_outcome images os limits disk entries
  refine ⟨houtcome.contained.1, houtcome.contained.2, ?_⟩
  intro hassets hbad
  obtain ⟨err, herr⟩ := houtcome.rejected hassets hbad
  exact ⟨⟨err, herr⟩, houtcome.cleaned herr⟩

/-! ## Two archives -/

/-- A system whose first temporary name is free and whose calls all succeed. -/
def sampleRestoreOS : RestoreOS := ⟨"", [1], fun _ => false, fun _ => none⟩

/-- Images that decode and encode to themselves. -/
def sampleImageCodec : ImageCodec := ⟨fun data => some ((1, 1), some data), fun data => some (some data)⟩

def sampleDisk : Disk := ⟨[position "."], [(position "data/subdux.db", [1])]⟩

/-- An archive's entry: a directory, or a regular file with a PNG in it. -/
def sampleEntry (name : String) (bits : BitVec 32) : ZipEntry :=
  ⟨name, ⟨bits⟩, 8, .ok ⟨[0x89, 0x50, 0x4E, 0x47, 0x0D, 0x0A, 0x1A, 0x0A], none⟩⟩

theorem restored_assets_in_icons_sample :
    let out :=
      extractAssetsFromZip sampleImageCodec sampleRestoreOS defaultBackupRestoreLimits sampleDisk
        [sampleEntry "assets/icons/a.png" 0, sampleEntry "x\\..\\..\\evil.png" 0]
    (∃ err, out.result = .error err) ∧ out.disk.files = sampleDisk.files := by
  obtain ⟨-, -, h⟩ :=
    restored_assets_in_icons sampleImageCodec sampleRestoreOS defaultBackupRestoreLimits sampleDisk
    [sampleEntry "assets/icons/a.png" 0, sampleEntry "x\\..\\..\\evil.png" 0]
  have hassets : (sampleEntry "assets/icons/a.png" 0).InAssets ["icons".toList, "a.png".toList] := by
    decide +kernel
  have hleaves : (sampleEntry "x\\..\\..\\evil.png" 0).LeavesRoot := by decide +kernel
  obtain ⟨herr, hfiles, -⟩ :=
    h ⟨_, List.mem_cons_self, _, hassets⟩ ⟨_, List.mem_cons_of_mem _ List.mem_cons_self, .inl hleaves⟩
  exact ⟨herr, hfiles⟩

/-- An entry for the directory `icons` itself is an assets entry that is no regular file, and the
archive is accepted. -/
theorem restored_assets_directory_accepted :
    (sampleEntry "assets/icons/" modeDir).InAssets ["icons".toList] ∧
      (sampleEntry "assets/icons/" modeDir).mode.isRegular = false ∧
      (extractAssetsFromZip sampleImageCodec sampleRestoreOS defaultBackupRestoreLimits sampleDisk
        [sampleEntry "assets/icons/" modeDir]).result = .ok (some "data/.subdux-restore-assets-1") := by
  decide +kernel

end Subdux
