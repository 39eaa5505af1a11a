import Subdux.Lib.Paths
/-!
# Directories and files

A disk as two lists: the directories that exist and the files with their bytes,
each at the position its path leads to. What is done below a directory that was
free before leaves no trace once the directory is removed with all it contains
(`Disk.SameOutside.removeAll`).
-/

namespace Disk

open GoPath

/-- `p` is `top` or lies below it. -/
def isUnder (top p : Position) : Bool :=
  top.rooted == p.rooted && top.ups == p.ups && top.down.isPrefixOf p.down

/-- The first `n` names of the way down. -/
def upTo (pos : Position) (n : Nat) : Position where
  rooted := pos.rooted
  ups := pos.ups
  down := pos.down.take n
  grounded := pos.grounded
  names := fun e he => pos.names e (List.mem_of_mem_take he)

/-- The directories on the way to a position, itself included. -/
def ancestors (pos : Position) : List Position := (List.range (pos.down.length + 1)).map (upTo pos)

end Disk

open GoPath Disk

structure Disk where
  dirs : List Position
  files : List (Position × List UInt8)
deriving DecidableEq

namespace Disk

def isFile (d : Disk) (p : Position) : Bool := d.files.any (·.1 == p)

/-- Something exists at the position or below it. -/
def occupied (d : Disk) (p : Position) : Bool :=
  d.dirs.any (isUnder p) || d.files.any fun f => isUnder p f.1

/-- `os.MkdirAll`: none where a file stands in the way. -/
def mkdirAll (d : Disk) (p : Position) : Option Disk :=
  if (ancestors p).any d.isFile then none
  else some { d with dirs := d.dirs ++ (ancestors p).filter (· ∉ d.dirs) }

/-- `os.Mkdir`: none where something exists or the parent does not. -/
def mkdir (d : Disk) (p : Position) : Option Disk :=
  if d.occupied p ∨ upTo p (p.down.length - 1) ∉ d.dirs then none
    else some { d with dirs := d.dirs ++ [p] }

/-- `os.WriteFile`: none where a directory stands or the parent does not exist. -/
def writeFile (d : Disk) (p : Position) (content : List UInt8) : Option Disk :=
  if p ∈ d.dirs ∨ upTo p (p.down.length - 1) ∉ d.dirs then none
  else some { d with files := d.files.filter (·.1 ≠ p) ++ [(p, content)] }

/-- `os.RemoveAll`: the position and all it contains. -/
def removeAll (d : Disk) (p : Position) : Disk where
  dirs := d.dirs.filter fun dir => !isUnder p dir
  files := d.files.filter fun f => !isUnder p f.1

/-! ## Below a directory and outside it -/

variable {d d' : Disk} {top p : Position}

theorem isUnder_iff :
    isUnder top p = true ↔ top.rooted = p.rooted ∧ top.ups = p.ups ∧ top.down <+: p.down := by
  simp [isUnder, and_assoc]

theorem isUnder_refl (p : Position) : isUnder p p = true := isUnder_iff.2 ⟨rfl, rfl, List.prefix_rfl⟩

theorem isUnder_within {pos : Position} {es : List (List Char)} (hes : ∀ e ∈ es, IsName e) :
    isUnder pos (pos.within es hes) = true := isUnder_iff.2 ⟨rfl, rfl, List.prefix_append _ _⟩

/-- The directory of a path that leads below `pos` by at least one name lies below `pos`. -/
theorem isUnder_dir {pos : Position} {names : List (List Char)} (hnames : ∀ e ∈ names, IsName e)
    (hne : names ≠ []) :
    isUnder pos (position (dir (pos.within names hnames).render)) = true := by
  have hdown : (pos.within names hnames).down = (pos.down ++ names.dropLast) ++ [names.getLast hne] := by
    rw [List.append_assoc, List.dropLast_concat_getLast]
    rfl
  have hparent := position_dir_render hdown
  generalize position (dir (pos.within names hnames).render) = parent at hparent ⊢
  obtain ⟨hrooted, hups, hdir⟩ := hparent
  refine isUnder_iff.2 ⟨hrooted.symm, hups.symm, ?_⟩
  rw [hdir]
  exact List.prefix_append _ _

/-- The way to a position below `top` is below `top` too, or is part of the way to `top`. -/
theorem mem_ancestors (h : isUnder top p = true) {a : Position} (ha : a ∈ ancestors p) :
    isUnder top a = true ∨ a ∈ ancestors top := by
  obtain ⟨hrooted, hups, hdown⟩ := isUnder_iff.1 h
  obtain ⟨n, hn, rfl⟩ := List.mem_map.1 ha
  rcases Nat.lt_or_ge n top.down.length with hlt | hge
  · refine .inr (List.mem_map.2 ⟨n, List.mem_range.2 (by omega), ?_⟩)
    apply Position.ext
    · exact hrooted
    · exact hups
    · obtain ⟨r, hr⟩ := hdown
      show top.down.take n = p.down.take n
      rw [← hr, List.take_append_of_le_length (by omega)]
  · refine .inl (isUnder_iff.2 ⟨hrooted, hups, ?_⟩)
    obtain ⟨r, hr⟩ := hdown
    show top.down <+: p.down.take n
    rw [← hr, List.take_append]
    exact (List.take_of_length_le hge).symm ▸ List.prefix_append _ _

/-- The two disks agree on everything but what lies under `top`. -/
def SameOutside (top : Position) (d d' : Disk) : Prop := d'.removeAll top = d.removeAll top

theorem SameOutside.refl (top : Position) (d : Disk) : SameOutside top d d := rfl

theorem SameOutside.trans {d'' : Disk} (h : SameOutside top d d') (h' : SameOutside top d' d'') :
    SameOutside top d d'' :=
  Eq.trans h' h

theorem occupied_removeAll (d : Disk) (p : Position) : (d.removeAll p).occupied p = false := by
  simp [occupied, removeAll]

theorem removeAll_of_free (h : d.occupied top = false) : d.removeAll top = d := by
  rw [occupied, Bool.or_eq_false_iff, List.any_eq_false, List.any_eq_false] at h
  have hdirs : d.dirs.filter (fun dir => !isUnder top dir) = d.dirs :=
    List.filter_eq_self.2 fun dir hdir => by simp [h.1 dir hdir]
  have hfiles : d.files.filter (fun f => !isUnder top f.1) = d.files :=
    List.filter_eq_self.2 fun f hf => by simp [h.2 f hf]
  rw [removeAll, hdirs, hfiles]

/-- Removing a directory that was free undoes all that was done below it. -/
theorem SameOutside.removeAll (h : SameOutside top d d') (hfree : d.occupied top = false) :
    d'.removeAll top = d := by
  rw [h, removeAll_of_free hfree]

theorem mkdir_free (h : d.mkdir top = some d') : d.occupied top = false := by
  rw [mkdir] at h
  split at h
  · cases h
  · rename_i hguard
    simpa using fun hocc => hguard (.inl hocc)

/-- Making directories below `top` changes nothing outside it, when the way to `top` exists. -/
theorem mkdirAll_sameOutside (hway : ∀ a ∈ ancestors top, a ∈ d.dirs) (hp : isUnder top p = true)
    (h : d.mkdirAll p = some d') :
    SameOutside top d d' := by
  rw [mkdirAll] at h
  split at h
  · cases h
  · obtain rfl := Option.some.inj h
    have hnew : ((ancestors p).filter (· ∉ d.dirs)).filter (fun dir => !isUnder top dir) = [] := by
      rw [List.filter_filter, List.filter_eq_nil_iff]
      intro a ha hboth
      rw [Bool.and_eq_true, decide_eq_true_eq] at hboth
      rcases mem_ancestors hp ha with hunder | hanc
      · simp [hunder] at hboth
      · exact hboth.2 (hway a hanc)
    simp only [SameOutside, Disk.removeAll, List.filter_append, hnew, List.append_nil]

theorem mkdirAll_dirs (h : d.mkdirAll p = some d') {dir : Position} (hdir : dir ∈ d.dirs) :
    dir ∈ d'.dirs := by
  rw [mkdirAll] at h
  split at h
  · cases h
  · obtain rfl := Option.some.inj h
    exact List.mem_append_left _ hdir

theorem mkdirAll_ancestors (h : d.mkdirAll p = some d') {a : Position} (ha : a ∈ ancestors p) :
    a ∈ d'.dirs := by
  rw [mkdirAll] at h
  split at h
  · cases h
  · obtain rfl := Option.some.inj h
    by_cases hin : a ∈ d.dirs
    · exact List.mem_append_left _ hin
    · exact List.mem_append_right _ (List.mem_filter.2 ⟨ha, by simpa using hin⟩)

theorem mkdirAll_files (h : d.mkdirAll p = some d') : d'.files = d.files := by
  rw [mkdirAll] at h
  split at h
  · cases h
  · obtain rfl := Option.some.inj h
    rfl

theorem mkdir_dirs (h : d.mkdir p = some d') : d'.dirs = d.dirs ++ [p] := by
  rw [mkdir] at h
  split at h
  · cases h
  · obtain rfl := Option.some.inj h
    rfl

theorem mkdir_files (h : d.mkdir p = some d') : d'.files = d.files := by
  rw [mkdir] at h
  split at h
  · cases h
  · obtain rfl := Option.some.inj h
    rfl

/-- The way to an entry is the way to its directory and the entry itself. -/
theorem mem_ancestors_enter {pos : Position} {e : List Char} (he : IsName e) {a : Position}
    (ha : a ∈ ancestors (pos.enter e he)) :
    a ∈ ancestors pos ∨ a = pos.enter e he := by
  obtain ⟨n, hn, rfl⟩ := List.mem_map.1 ha
  have hlen : (pos.enter e he).down.length = pos.down.length + 1 := List.length_append
  rw [hlen, List.mem_range] at hn
  rcases Nat.lt_or_ge n (pos.down.length + 1) with hlt | hge
  · refine .inl (List.mem_map.2 ⟨n, List.mem_range.2 hlt, ?_⟩)
    apply Position.ext
    · rfl
    · rfl
    · exact (List.take_append_of_le_length (by omega)).symm
  · right
    apply Position.ext
    · rfl
    · rfl
    · exact List.take_of_length_le (by omega)

theorem mkdir_sameOutside (h : d.mkdir top = some d') : SameOutside top d d' := by
  rw [mkdir] at h
  split at h
  · cases h
  · obtain rfl := Option.some.inj h
    simp [SameOutside, Disk.removeAll, isUnder_refl]

theorem writeFile_sameOutside {content : List UInt8} (hp : isUnder top p = true)
    (h : d.writeFile p content = some d') :
    SameOutside top d d' := by
  rw [writeFile] at h
  split at h
  · cases h
  · obtain rfl := Option.some.inj h
    have hold : (d.files.filter (·.1 ≠ p)).filter (fun f => !isUnder top f.1) = d.files.filter
        fun f => !isUnder top f.1 := by
      rw [List.filter_filter]
      apply List.filter_congr
      intro f _
      by_cases hf : f.1 = p
      · simp [hf, hp]
      · simp [hf]
    simp only [SameOutside, Disk.removeAll, List.filter_append, hold]
    simp [hp]

theorem writeFile_dirs {content : List UInt8} (h : d.writeFile p content = some d') :
    d'.dirs = d.dirs := by
  rw [writeFile] at h
  split at h
  · cases h
  · obtain rfl := Option.some.inj h
    rfl

theorem mem_files_writeFile {content : List UInt8} (h : d.writeFile p content = some d')
    {f : Position × List UInt8} (hf : f ∈ d'.files) : f ∈ d.files ∨ f.1 = p := by
  rw [writeFile] at h
  split at h
  · cases h
  · obtain rfl := Option.some.inj h
    rcases List.mem_append.1 hf with hf | hf
    · exact .inl (List.mem_filter.1 hf).1
    · exact .inr (by rw [List.mem_singleton.1 hf])

end Disk
