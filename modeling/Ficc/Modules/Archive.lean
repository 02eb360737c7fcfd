import Ficc.Execution.Spec
import Mathlib.Data.List.Lemmas
import Mathlib.Algebra.GroupWithZero.Nat

/-!
# Module packages and their files

A package is an archive whose manifest lists its files with their digests. `inspectArchive` checks
the archive, `stageActions` are the changes by which `publish` builds the read-only files of a
package in a stage, and `verify` checks the installed files against the manifest.

The ZIP reader and the validator of the manifest are parameters, and so is SHA-256. A directory is
the list of what was created in it, a parent before its content. Owners, links and the kinds of
special files are left out: nobody else writes in the module storage.
-/

namespace Ficc.Modules

open Execution (Digest)

abbrev Bytes : Type := List UInt8

/-- A path in a package, by its parts. -/
abbrev Path : Type := List String

/-- The `Failure` of the validators. -/
def invalid (message : String) : Error := .failure "invalid_module" message 400

inductive Kind
  | native | python | javascript | declarative
deriving DecidableEq

/-- The fields of a manifest that the registry reads. -/
structure Manifest where
  id : String
  version : String
  kind : Kind
  /-- A declarative package has none. -/
  entry : Option Path
  capabilities : List String
  optionalCapabilities : List String
  files : List (Path × Digest)
deriving DecidableEq

/-- The formats of a package. -/
class Format where
  sha256 : Bytes → Digest
  /-- The members of a ZIP file, with distinct names. -/
  members : Bytes → Option (List (Path × Bytes))
  members_nodup : ∀ data list, members data = some list → (list.map Prod.fst).Nodup
  /-- `loads` and `validate_manifest` -/
  manifest : Bytes → Option Manifest

open Format (sha256 members)

def MAX_ARCHIVE : ℕ := 16 * 1024 * 1024
def MAX_EXPANDED : ℕ := 64 * 1024 * 1024
def MAX_FILE : ℕ := 16 * 1024 * 1024
def MAX_MANIFEST : ℕ := 64 * 1024
def MAX_MEMBERS : ℕ := 256

def manifestName : Path := ["manifest.json"]

/-- The archive as it was inspected. -/
structure Inspection where
  digest : Digest
  archive : Bytes
  manifestBytes : Bytes
  manifest : Manifest
  /-- The members of the archive without the manifest. -/
  contents : List (Path × Bytes)
  expandedBytes : ℕ
deriving DecidableEq

/-- The sum of the sizes of some files. -/
def expanded (list : List (Path × Bytes)) : ℕ := (list.map fun member => member.2.length).sum

/-- The entry of a dictionary under a name. -/
def entry {α : Type} (list : List (Path × α)) (name : Path) : Option α :=
  (list.find? fun member => member.1 = name).map Prod.snd

/-- A file of the archive, which must be as the inventory says. -/
def inspectFile [Format] (list : List (Path × Bytes)) (file : Path × Digest) : Except Error Unit := do
  let data ← orRaise (entry list file.1) (invalid "The module archive could not be read safely.")
  raiseIf (sha256 data ≠ file.2) (invalid "A module file digest does not match its inventory.")

/-- Validates all bytes and file digests. -/
def inspectArchive [Format] (data : Bytes) : Except Error Inspection := do
  raiseIf (¬(0 < data.length ∧ data.length ≤ MAX_ARCHIVE))
    (invalid "The module archive must be at most 16 MiB.")
  let list ← orRaise (members data) (invalid "The module archive could not be read safely.")
  raiseIf (¬(1 ≤ list.length ∧ list.length ≤ MAX_MEMBERS))
    (invalid "The module archive member count exceeds the limit.")
  raiseIf (list.any fun member => decide (MAX_FILE < member.2.length))
    (invalid "A module file exceeds the size limit.")
  raiseIf (MAX_EXPANDED < expanded list ∨ entry list manifestName = none)
    (invalid "The module expanded size or manifest is invalid.")
  let manifestBytes ← orRaise (entry list manifestName)
    (invalid "The module archive could not be read safely.")
  raiseIf (MAX_MANIFEST < manifestBytes.length) (invalid "A module file exceeds the size limit.")
  let manifest ← orRaise (Format.manifest manifestBytes) (invalid "The module JSON is invalid.")
  raiseIf (¬(list.map Prod.fst).Perm (manifestName :: manifest.files.map Prod.fst))
    (invalid "The archive members do not match the complete file inventory.")
  manifest.files.forM (inspectFile list)
  -- Every file of the inventory has been found.
  let contents := manifest.files.map fun file => (file.1, (entry list file.1).getD [])
  pure ⟨sha256 data, data, manifestBytes, manifest, contents, expanded list⟩

/-! ### Directories -/

/-- What a directory of a package can contain, with its mode. -/
inductive Member
  | file (path : Path) (content : Bytes) (mode : ℕ)
  | directory (path : Path) (mode : ℕ)
deriving DecidableEq

/-- The directory of a package, with its own mode. -/
structure Directory where
  mode : ℕ
  members : List Member
deriving DecidableEq

/-- The modes `0o400`, `0o500` and `0o700`. -/
def readOnly : ℕ := 0o400

@[inherit_doc readOnly]
def executable : ℕ := 0o500

@[inherit_doc readOnly]
def writable : ℕ := 0o700

def Member.isDirectory : Member → Bool
  | .directory _ _ => true
  | .file _ _ _ => false

def Member.path : Member → Path
  | .directory path _ => path
  | .file path _ _ => path

@[simp]
theorem Member.isDirectory_directory (path : Path) (mode : ℕ) :
    (Member.directory path mode).isDirectory = true := rfl

@[simp]
theorem Member.isDirectory_file (path : Path) (content : Bytes) (mode : ℕ) :
    (Member.file path content mode).isDirectory = false := rfl

/-- The member is the directory with the path. -/
def Member.isDirectoryAt (path : Path) : Member → Bool
  | .directory found _ => found = path
  | .file _ _ _ => false

/-- The size of a file. -/
def Member.size : Member → ℕ
  | .directory _ _ => 0
  | .file _ content _ => content.length

/-- The number of bytes in a directory. -/
def Directory.bytes (directory : Directory) : ℕ := (directory.members.map Member.size).sum

/-- The number of files in a directory. -/
def Directory.count (directory : Directory) : ℕ :=
  directory.members.countP fun member => !member.isDirectory

/-- The mode of an installed file. -/
def Manifest.mode (manifest : Manifest) (name : Path) : ℕ :=
  if manifest.kind = .native ∧ manifest.entry = some name then executable else readOnly

/-- The parents of a file inside its package. -/
def parents (name : Path) : List Path := name.inits.filter fun part => part ≠ [] ∧ part ≠ name

/-- The digests of all files of a package. -/
def inventory [Format] (manifest : Manifest) (manifestBytes : Bytes) : List (Path × Digest) :=
  (manifestName, sha256 manifestBytes) :: manifest.files

/-- A member of an installed package must be as the inventory says. -/
def verifyMember [Format] (manifest : Manifest) (manifestBytes : Bytes) : Member → Except Error Unit
  | .directory path mode =>
    raiseIf (¬(((inventory manifest manifestBytes).any fun file => path ∈ parents file.1) ∧
        mode = executable))
      (invalid "An installed module directory has invalid content or permissions.")
  | .file path data mode => do
    let checksum ← orRaise (entry (inventory manifest manifestBytes) path)
      (invalid "The installed module contains an unexpected file.")
    raiseIf (MAX_FILE < data.length ∨ mode ≠ manifest.mode path)
      (invalid "The installed module file is invalid.")
    raiseIf (sha256 data ≠ checksum) (invalid "The installed module digest changed.")

/-- The names of the files in a directory. -/
def Directory.names (directory : Directory) : List Path :=
  (directory.members.filter fun member => !member.isDirectory).map Member.path

/-- Refuses modified or additional content. -/
def verify [Format] (directory : Option Directory) (manifest : Manifest) (manifestBytes : Bytes) :
    Except Error Unit := do
  let found ← orRaise directory (invalid "The installed module directory is invalid.")
  raiseIf (found.mode ≠ executable)
    (invalid "An installed module directory has invalid content or permissions.")
  found.members.forM (verifyMember manifest manifestBytes)
  raiseIf (MAX_EXPANDED < found.bytes) (invalid "The installed module exceeds the size limit.")
  raiseIf (¬∀ file ∈ inventory manifest manifestBytes, file.1 ∈ found.names)
    (invalid "The installed module is incomplete.")

theorem verify_none [Format] (manifest : Manifest) (manifestBytes : Bytes) :
    verify none manifest manifestBytes ≠ .ok () := by
  simp [verify, bind_eq_ok]

/-- A directory that has been opened for removal does not verify. -/
theorem mode_of_verify [Format] {directory : Directory} {manifest : Manifest}
    {manifestBytes : Bytes} (h : verify (some directory) manifest manifestBytes = .ok ()) :
    directory.mode = executable := by
  simp only [verify, bind_eq_ok, orRaise_eq_ok, raiseIf_eq_ok, not_not] at h
  obtain ⟨found, hfound, -, hmode, -⟩ := h
  cases hfound
  exact hmode

/-! ### Publication -/

/-- A change of a stage. -/
inductive StageAction
  | makeDirectory (path : Path)
  | writeFile (path : Path) (content : Bytes) (mode : ℕ)
  | close (path : Path)
  /-- The stage itself is closed at the end. -/
  | seal

/-- Makes a directory read-only when it is the given one. -/
def Member.close (path : Path) : Member → Member
  | .directory found mode => .directory found (if found = path then executable else mode)
  | .file found content mode => .file found content mode

def StageAction.apply (stage : Directory) : StageAction → Directory
  | .makeDirectory path =>
    if stage.members.any (Member.isDirectoryAt path) then stage
    else { stage with members := stage.members ++ [.directory path writable] }
  | .writeFile path content mode =>
    { stage with members := stage.members ++ [.file path content mode] }
  | .close path => { stage with members := stage.members.map (Member.close path) }
  | .seal => { stage with mode := executable }

namespace Inspection

/-- The files in the order in which they are written. -/
def files (checked : Inspection) : List (Path × Bytes) :=
  (manifestName, checked.manifestBytes) :: checked.contents

/-- The changes that write a file. -/
def fileActions (checked : Inspection) (file : Path × Bytes) : List StageAction :=
  (parents file.1).map .makeDirectory ++
    [.writeFile file.1 file.2 (checked.manifest.mode file.1)]

/-- The directories of a package, from the bottom to the top. -/
def directories (checked : Inspection) : List Path :=
  (checked.files.flatMap fun file => parents file.1).dedup.reverse

/-- The changes that build a package in an empty stage. -/
def stageActions (checked : Inspection) : List StageAction :=
  checked.files.flatMap checked.fileActions ++ checked.directories.map .close ++ [.seal]

/-- The files of a package as they are published. -/
def published (checked : Inspection) : Directory :=
  checked.stageActions.foldl StageAction.apply ⟨writable, []⟩

end Inspection

/-! ### What is published verifies -/

theorem mem_of_entry {α : Type} {list : List (Path × α)} {name : Path} {value : α}
    (h : entry list name = some value) : (name, value) ∈ list := by
  simp only [entry, Option.map_eq_some_iff] at h
  obtain ⟨member, hfind, rfl⟩ := h
  have hname : member.1 = name := by simpa using List.find?_some hfind
  rw [← hname]
  exact List.mem_of_find?_eq_some hfind

/-- A dictionary has every one of its entries. -/
theorem entry_of_mem {α : Type} {list : List (Path × α)} (hnodup : (list.map Prod.fst).Nodup)
    {name : Path} {value : α} (h : (name, value) ∈ list) : entry list name = some value := by
  induction list with
  | nil => cases h
  | cons first rest ih =>
    simp only [List.map_cons, List.nodup_cons] at hnodup
    rcases List.mem_cons.mp h with rfl | hrest
    · simp [entry]
    · have hne : first.1 ≠ name := by
        rintro rfl
        exact hnodup.1 (List.mem_map.mpr ⟨_, hrest, rfl⟩)
      rw [← ih hnodup.2 hrest]
      simp [entry, hne]

/-- What is known of an archive that has been inspected. -/
structure Inspection.Checked [Format] (checked : Inspection) : Prop where
  names : checked.contents.map Prod.fst = checked.manifest.files.map Prod.fst
  distinct : (manifestName :: checked.manifest.files.map Prod.fst).Nodup
  sizes : ∀ file ∈ checked.files, file.2.length ≤ MAX_FILE
  total : expanded checked.files ≤ MAX_EXPANDED
  expandedBytes : checked.expandedBytes = expanded checked.files
  contents : ∀ file ∈ checked.contents, (file.1, sha256 file.2) ∈ checked.manifest.files
  digest : checked.digest = sha256 checked.archive
  manifest : Format.manifest checked.manifestBytes = some checked.manifest

/-- The size of a dictionary is the sum over its names in any order. -/
theorem expanded_eq_sum {list : List (Path × Bytes)} (hnodup : (list.map Prod.fst).Nodup) :
    expanded list =
      ((list.map Prod.fst).map fun name => ((entry list name).getD []).length).sum := by
  rw [expanded, List.map_map]
  congr 1
  refine List.map_congr_left fun member hmember => ?_
  simp [entry_of_mem hnodup hmember]

theorem inspectArchive_checked [Format] {data : Bytes} {checked : Inspection}
    (h : inspectArchive data = .ok checked) : checked.Checked ∧ checked.archive = data := by
  simp only [inspectArchive, bind_eq_ok, raiseIf_eq_ok, orRaise_eq_ok] at h
  obtain ⟨-, -, list, hlist, -, -, -, hsizes, -, htotal, raw, hraw, -, -, manifest, hmanifest, -,
    hnames, u, hfiles, h⟩ := h
  cases h
  replace hfiles := forM_eq_ok.mp hfiles
  have hnodup := Format.members_nodup data list hlist
  replace hnames : (list.map Prod.fst).Perm (manifestName :: manifest.files.map Prod.fst) :=
    not_not.mp hnames
  have hfound : ∀ file ∈ manifest.files, ∃ content, entry list file.1 = some content ∧
      sha256 content = file.2 := by
    intro file hfile
    have hinspected := hfiles file hfile
    simp only [inspectFile, bind_eq_ok, orRaise_eq_ok, raiseIf_eq_ok, not_not] at hinspected
    exact hinspected
  have hbound : ∀ member ∈ list, member.2.length ≤ MAX_FILE := by
    intro member hmember
    by_contra hlarge
    exact hsizes (List.any_eq_true.mpr ⟨member, hmember, decide_eq_true (Nat.lt_of_not_le hlarge)⟩)
  -- The files are written in the order of the manifest, so the sizes are added in that order.
  have hsum : expanded list = expanded ((manifestName, raw) :: manifest.files.map fun file =>
      (file.1, (entry list file.1).getD [])) := by
    rw [expanded_eq_sum hnodup, (hnames.map _).sum_eq]
    simp only [expanded, List.map_cons, List.map_map, hraw, Option.getD_some]
    rfl
  refine ⟨?_, rfl⟩
  constructor
  · simp
  · exact hnames.nodup_iff.mp hnodup
  · intro file hfile
    rcases List.mem_cons.mp hfile with rfl | hfile
    · exact hbound _ (mem_of_entry hraw)
    · obtain ⟨listed, hlisted, rfl⟩ := List.mem_map.mp hfile
      obtain ⟨content, hcontent, -⟩ := hfound listed hlisted
      simp only [hcontent, Option.getD_some]
      exact hbound _ (mem_of_entry hcontent)
  · show expanded ((manifestName, raw) :: _) ≤ MAX_EXPANDED
    rw [← hsum]
    exact Nat.le_of_not_lt fun hlarge => htotal (.inl hlarge)
  · exact hsum
  · intro file hfile
    obtain ⟨listed, hlisted, rfl⟩ := List.mem_map.mp hfile
    obtain ⟨content, hcontent, hdigest⟩ := hfound listed hlisted
    simp only [hcontent, Option.getD_some, hdigest]
    exact hlisted
  · rfl
  · exact hmanifest

/-- A stage in which some of the files have been written. -/
structure Staged (checked : Inspection) (done : List (Path × Bytes)) (stage : Directory) :
    Prop where
  files : (stage.members.filter fun member => !member.isDirectory) =
    done.map fun file => .file file.1 file.2 (checked.manifest.mode file.1)
  directories : ∀ path mode, Member.directory path mode ∈ stage.members →
    path ∈ checked.directories

namespace Staged

variable {checked : Inspection} {done : List (Path × Bytes)} {stage : Directory}

theorem makeDirectory (h : Staged checked done stage) {path : Path}
    (hpath : path ∈ checked.directories) :
    Staged checked done (StageAction.apply stage (.makeDirectory path)) := by
  simp only [StageAction.apply]
  split
  · exact h
  · constructor
    · simpa [List.filter_append] using h.files
    · intro found mode hfound
      rcases List.mem_append.mp hfound with hold | hnew
      · exact h.directories found mode hold
      · cases List.mem_singleton.mp hnew
        exact hpath

theorem writeFile (h : Staged checked done stage) (file : Path × Bytes) :
    Staged checked (done ++ [file]) (StageAction.apply stage
      (.writeFile file.1 file.2 (checked.manifest.mode file.1))) := by
  constructor
  · simp [StageAction.apply, List.filter_append, h.files]
  · intro found mode hfound
    simp only [StageAction.apply, List.mem_append, List.mem_singleton, reduceCtorEq,
      or_false] at hfound
    exact h.directories found mode hfound

theorem fileActions (h : Staged checked done stage) {file : Path × Bytes}
    (hfile : file ∈ checked.files) :
    Staged checked (done ++ [file])
      ((checked.fileActions file).foldl StageAction.apply stage) := by
  have hparents : ∀ path ∈ parents file.1, path ∈ checked.directories := by
    intro path hpath
    simp only [Inspection.directories, List.mem_reverse, List.mem_dedup, List.mem_flatMap]
    exact ⟨file, hfile, hpath⟩
  rw [Inspection.fileActions, List.foldl_append, List.foldl_map]
  refine writeFile ?_ file
  -- The parents come before the file, and each is in the package.
  generalize parents file.1 = paths at hparents
  induction paths generalizing stage with
  | nil => exact h
  | cons path paths ih =>
    exact ih (h.makeDirectory (hparents path List.mem_cons_self)) fun path' hpath' =>
      hparents path' (List.mem_cons_of_mem path hpath')

theorem writeFiles (h : Staged checked done stage) {rest : List (Path × Bytes)}
    (hrest : ∀ file ∈ rest, file ∈ checked.files) :
    Staged checked (done ++ rest)
      ((rest.flatMap checked.fileActions).foldl StageAction.apply stage) := by
  induction rest generalizing stage done with
  | nil => simpa using h
  | cons file rest ih =>
    rw [List.flatMap_cons, List.foldl_append, List.append_cons]
    exact ih (h.fileActions (hrest file List.mem_cons_self)) fun file' hfile' =>
      hrest file' (List.mem_cons_of_mem file hfile')

/-- Closing a directory changes no file. -/
theorem filter_close (path : Path) (members : List Member) :
    ((members.map (Member.close path)).filter fun member => !member.isDirectory) =
      members.filter fun member => !member.isDirectory := by
  induction members with
  | nil => rfl
  | cons member members ih =>
    cases member with
    | file found content mode => simp [Member.close, ih]
    | directory found mode => simp [Member.close, ih]

theorem close (h : Staged checked done stage) (path : Path) :
    Staged checked done (StageAction.apply stage (.close path)) := by
  constructor
  · rw [← h.files]
    exact filter_close path stage.members
  · intro found mode hfound
    obtain ⟨member, hmember, hclosed⟩ := List.mem_map.mp hfound
    cases member with
    | file found content mode => cases hclosed
    | directory found' mode' =>
      cases hclosed
      exact h.directories _ _ hmember

/-- After the directories are closed none of them is writable. -/
theorem closeAll (h : Staged checked done stage) (paths : List Path)
    {closed : List Path} (hclosed : ∀ path mode, Member.directory path mode ∈ stage.members →
      path ∈ closed → mode = executable) :
    let last := (paths.map StageAction.close).foldl StageAction.apply stage
    Staged checked done last ∧
      ∀ path mode, Member.directory path mode ∈ last.members → path ∈ closed ++ paths →
        mode = executable := by
  induction paths generalizing stage closed with
  | nil => exact ⟨h, by simpa using hclosed⟩
  | cons path paths ih =>
    have hnext : ∀ found mode,
        Member.directory found mode ∈ (StageAction.apply stage (.close path)).members →
          found ∈ closed ++ [path] → mode = executable := by
      intro found mode hfound hmem
      obtain ⟨member, hmember, heq⟩ := List.mem_map.mp hfound
      cases member with
      | file found content mode => cases heq
      | directory found' mode' =>
        simp only [Member.close, Member.directory.injEq] at heq
        obtain ⟨rfl, rfl⟩ := heq
        by_cases hpath : found' = path
        · rw [if_pos hpath]
        · rw [if_neg hpath]
          refine hclosed _ _ hmember ?_
          simpa [hpath] using hmem
    have hlast := ih (h.close path) hnext
    rw [← List.append_cons] at hlast
    exact hlast

end Staged

theorem bytes_eq_expanded {checked : Inspection} {done : List (Path × Bytes)} {stage : Directory}
    (h : Staged checked done stage) : stage.bytes = expanded done := by
  have hfiles : ∀ members : List Member, (members.map Member.size).sum =
      ((members.filter fun member => !member.isDirectory).map Member.size).sum := by
    intro members
    induction members with
    | nil => rfl
    | cons member members ih =>
      cases member with
      | file found content mode => simp [ih]
      | directory found mode => simp [Member.size, ih]
  rw [Directory.bytes, hfiles, h.files, expanded, List.map_map]
  rfl

/-- The published directory has all the files, and nothing in it can be written. -/
theorem published_staged (checked : Inspection) :
    Staged checked checked.files checked.published ∧ checked.published.mode = executable ∧
      ∀ path mode, Member.directory path mode ∈ checked.published.members →
        mode = executable := by
  have hempty : Staged checked [] ⟨writable, []⟩ := ⟨rfl, by simp⟩
  have hwritten := hempty.writeFiles fun _ hfile => hfile
  obtain ⟨hstaged, hclosed⟩ := hwritten.closeAll checked.directories
    (fun _ _ _ hnone => absurd hnone List.not_mem_nil)
  rw [List.nil_append] at hstaged
  have hpublished : checked.published = StageAction.apply
      ((checked.directories.map StageAction.close).foldl StageAction.apply
        ((checked.files.flatMap checked.fileActions).foldl StageAction.apply ⟨writable, []⟩))
      .seal := by
    simp only [Inspection.published, Inspection.stageActions, List.foldl_append, List.foldl_cons,
      List.foldl_nil]
  rw [hpublished]
  refine ⟨⟨hstaged.files, hstaged.directories⟩, rfl, fun path mode hmem => ?_⟩
  exact hclosed path mode hmem (hstaged.directories path mode hmem)

/-- The files of a package that has been inspected verify as they are published. -/
theorem verify_published [Format] {checked : Inspection} (h : checked.Checked) :
    verify (some checked.published) checked.manifest checked.manifestBytes = .ok () := by
  obtain ⟨hstaged, hmode, hclosed⟩ := published_staged checked
  have hinventory : (inventory checked.manifest checked.manifestBytes).map Prod.fst =
      checked.files.map Prod.fst := by
    simp [inventory, Inspection.files, h.names]
  have hlisted : ∀ file ∈ checked.files,
      (file.1, sha256 file.2) ∈ inventory checked.manifest checked.manifestBytes := by
    intro file hfile
    rcases List.mem_cons.mp hfile with rfl | hfile
    · exact List.mem_cons_self
    · exact List.mem_cons_of_mem _ (h.contents file hfile)
  have hmembers : ∀ member ∈ checked.published.members,
      verifyMember checked.manifest checked.manifestBytes member = .ok () := by
    intro member hmember
    cases member with
    | directory path mode =>
      have hpath := hstaged.directories path mode hmember
      simp only [Inspection.directories, List.mem_reverse, List.mem_dedup,
        List.mem_flatMap] at hpath
      obtain ⟨file, hfile, hparent⟩ := hpath
      rw [verifyMember, raiseIf_eq_ok, not_not]
      refine ⟨List.any_eq_true.mpr ⟨_, hlisted file hfile, ?_⟩, hclosed path mode hmember⟩
      exact decide_eq_true hparent
    | file path content mode =>
      have hfiltered : Member.file path content mode ∈
          checked.published.members.filter fun member => !member.isDirectory :=
        List.mem_filter.mpr ⟨hmember, rfl⟩
      rw [hstaged.files, List.mem_map] at hfiltered
      obtain ⟨file, hfile, heq⟩ := hfiltered
      cases heq
      have hentry : entry (inventory checked.manifest checked.manifestBytes) file.1 =
          some (sha256 file.2) :=
        entry_of_mem (by rw [hinventory]; simpa [Inspection.files, h.names] using h.distinct)
          (hlisted file hfile)
      simp only [verifyMember, bind_eq_ok, orRaise_eq_ok, raiseIf_eq_ok]
      refine ⟨_, hentry, (), ?_, fun hne => hne rfl⟩
      rintro (hlarge | hother)
      · exact absurd (h.sizes file hfile) (Nat.not_le.mpr hlarge)
      · exact hother rfl
  have hbytes : checked.published.bytes ≤ MAX_EXPANDED := by
    rw [bytes_eq_expanded hstaged]
    exact h.total
  have hnames : checked.published.names = checked.files.map Prod.fst := by
    rw [Directory.names, hstaged.files, List.map_map]
    rfl
  simp only [verify, bind_eq_ok, orRaise_eq_ok, raiseIf_eq_ok, not_not]
  refine ⟨_, rfl, (), hmode, (), forM_eq_ok.mpr hmembers, (), Nat.not_lt.mpr hbytes, ?_⟩
  intro file hfile
  rw [hnames, ← hinventory]
  exact List.mem_map_of_mem hfile

end Ficc.Modules
