import Ficc.Transfers.Chunks

/-!
# The phases of a file transfer

The states that a transfer can be in, wherever its actions were stopped (`Sound`): before the
commit the destination is the old file, and the partial file starts with the accepted bytes. A
commit writes its record (`recorded`) before the two files change places (`renamed`), and it writes
that it succeeded after it has found the new file in place. The old file is deleted after that.

Every action, except for the deletion of a download that was published, leads only through such
states. There is one lemma for each part of an action.
-/

namespace Ficc.Transfers.Node

open Execution (Identity Digest Hash)
open Durable

/-- The partial file, if there is one. -/
def data (s : Node) : Option File := s.staging.bind Stage.data

section Phases

variable [Hashing] (old : Option File) (requested : Digest → Prop) (stuck : Prop)

/-- The file is not the one that was at the destination. -/
def Apart (file : File) : Prop := ∀ f, old = some f → file.ino ≠ f.ino

/-- The file is the one that was at the destination. Its content may have been shortened to the
length of the accepted bytes. -/
def Displaced (accepted : Bytes) (file : File) : Prop :=
  ∃ f, old = some f ∧ file.ino = f.ino ∧ file.regular = f.regular ∧
    (file.content = f.content ∨ file.content = f.content.take accepted.length)

/-- The file is the one that the commit publishes. -/
structure Committed (accepted : Bytes) (record : Record) (file : File) : Prop where
  content : file.content = accepted
  complete : record.offset = record.size
  prepared : record.prepared = true
  digest : record.sha256 = some (Hashing.sha256 accepted)
  requested : requested (Hashing.sha256 accepted)
  committed : ∃ identity, record.committedIdentity = some identity ∧ identity.ino = file.ino ∧
    identity.regular = file.regular
  apart : Apart old file

/-- How far a transfer has come, with the destination and the partial file that it has then. With
`stuck`, a commit may have been stopped before the files changed places. -/
inductive Phase (destination partialFile : Option File) (accepted : Bytes) (record : Record) : Prop
  /-- The staging directory is not prepared yet. -/
  | unprepared (hstate : record.state = .preparing ∨ record.state = .interrupted)
    (hprepared : record.prepared = false) (hdestination : destination = old)
    (hempty : ∀ file, partialFile = some file → file.content = [] ∧ Apart old file)
    (haccepted : accepted = [])
  /-- The transfer accepts chunks, or it is interrupted. The partial file starts with the accepted
  bytes. -/
  | receiving (hstate : record.state = .running ∨ record.state = .interrupted)
    (hprepared : record.prepared = true) (hdestination : destination = old) (file : File)
    (hfile : partialFile = some file) (hstart : file.content.take record.offset = accepted)
    (hapart : Apart old file)
  /-- The record of the commit is written. -/
  | recorded (hstuck : stuck) (hstate : record.state = .committing)
    (hdestination : destination = old) (file : File) (hfile : partialFile = some file) (hcommitted : Committed old requested accepted record file)
  /-- The files have changed places. -/
  | renamed (hstate : record.state = .committing) (file : File)
    (hdestination : destination = some file)
    (hcommitted : Committed old requested accepted record file)
    (hdisplaced : old.isSome → partialFile.isSome)
    (hmoved : ∀ moved, partialFile = some moved → Displaced old accepted moved)
  | succeeded (hstate : record.state = .succeeded) (file : File)
    (hdestination : destination = some file)
    (hcommitted : Committed old requested accepted record file)
    (hmoved : ∀ moved, partialFile = some moved → Displaced old accepted moved)
  | discarded (hstate : record.state = .discarding ∨ record.state = .cancelled)
    (hdestination : destination = old)

/-- What holds of a transfer with a record. -/
structure Kept (s : Node) (record : Record) : Prop where
  record_eq : s.record = some record
  expected : record.expected = old.map File.identity
  length : s.accepted.length = record.offset
  staged : record.state = .committing → s.staging ≠ none
  phase : Phase old requested stuck s.destination s.data s.accepted record

/-- What holds in every state. -/
inductive Sound (s : Node) : Prop
  | absent (hrecord : s.record = none) (hdestination : s.destination = old)
    (hstaging : s.staging = none) (haccepted : s.accepted = [])
  | kept (record : Record) (h : Kept old requested stuck s record)

end Phases

section Updates

variable {s : Node}

theorem data_of_staging {folder : Stage} (h : s.staging = some folder) : s.data = folder.data := by
  simp [data, h]

theorem data_setData {folder : Stage} (h : s.staging = some folder) (file : Option File) :
    (setData file s).data = file := by
  simp [data, setData, h]

@[simp]
theorem data_setChunks (chunks : Option (List Digest)) : (setChunks chunks s).data = s.data := by
  simp only [data, setChunks]
  cases s.staging <;> rfl

end Updates

section Programs

variable {α : Type} {ok : α → Node → Prop} {raised : FileError → Node → Prop}
  {during : Node → Prop} {s : Node}

/-- The record is stored in one step. -/
@[simp]
theorem wp_save {ok : Unit → Node → Prop} {record : Record} :
    wp (save record) ok raised during s ↔
      during { s with record := some record } ∧ ok () { s with record := some record } :=
  wp_perform

@[simp]
theorem wp_stage {ok : Stage → Node → Prop} :
    wp stage ok raised during s ↔
      (s.staging = none → raised .missing s) ∧ ∀ folder, s.staging = some folder → ok folder s := by
  simp [stage]

/-- The data file is there, or it is missing. -/
theorem wp_dataFile {ok : File → Node → Prop} (hraised : raised .missing s)
    (hok : ∀ folder file, s.staging = some folder → folder.data = some file → ok file s) :
    wp dataFile ok raised during s := by
  simp only [dataFile, wp_bind, wp_stage, wp_demand]
  exact ⟨fun _ => hraised, fun folder hfolder =>
    ⟨fun _ => hraised, fun file hfile => hok folder file hfolder hfile⟩⟩

/-- So is the journal of the chunks. -/
theorem wp_journal {ok : List Digest → Node → Prop} (hraised : raised .missing s)
    (hok : ∀ folder chunks, s.staging = some folder → folder.chunks = some chunks → ok chunks s) :
    wp journal ok raised during s := by
  simp only [journal, wp_bind, wp_stage, wp_demand]
  exact ⟨fun _ => hraised, fun folder hfolder =>
    ⟨fun _ => hraised, fun chunks hchunks => hok folder chunks hfolder hchunks⟩⟩

end Programs

/-- The inodes of the files. -/
def inodes (s : Node) : List ℕ := (s.destination.toList ++ s.data.toList).map File.ino

/-- A new file has an inode that no other file has. -/
def Fresh (s : Node) (kernel : Kernel) : Prop := kernel.inode ∉ s.inodes

instance (s : Node) (kernel : Kernel) : Decidable (Fresh s kernel) :=
  inferInstanceAs (Decidable (_ ∉ _))

/-- A new inode is not the one at the destination. -/
theorem Fresh.ne_ino {s : Node} {kernel : Kernel} (h : Fresh s kernel) {file : File}
    (hfile : s.destination = some file) : kernel.inode ≠ file.ino := by
  rintro heq
  exact h (by simp [inodes, hfile, heq])

section Preparation

variable {old : Option File} {requested : Digest → Prop} {stuck : Prop} {s : Node} {record : Record}
  {kernel : Kernel}

/-- A transfer that is being prepared. -/
structure Preparing (old : Option File) (s : Node) (record : Record) : Prop where
  record_eq : s.record = some record
  expected : record.expected = old.map File.identity
  state : record.state = .preparing ∨ record.state = .interrupted
  prepared : record.prepared = false
  offset : record.offset = 0
  destination : s.destination = old
  empty : ∀ file, s.data = some file → file.content = [] ∧ Apart old file
  accepted : s.accepted = []

/-- A step that changes only the staging directory keeps the preparation going. -/
theorem Preparing.congr (h : Preparing old s record) {t : Node} (hrecord : t.record = s.record)
    (hdestination : t.destination = s.destination) (haccepted : t.accepted = s.accepted)
    (hempty : ∀ file, t.data = some file → file.content = [] ∧ Apart old file) :
    Preparing old t record :=
  ⟨hrecord.trans h.record_eq, h.expected, h.state, h.prepared, h.offset,
    hdestination.trans h.destination, hempty, haccepted.trans h.accepted⟩

variable [Hashing]

/-- A transfer that is being prepared is sound. -/
theorem Preparing.sound (h : Preparing old s record) : Sound old requested stuck s :=
  .kept record ⟨h.record_eq, h.expected, by simp [h.accepted, h.offset],
    fun hstate => by simpa [hstate] using h.state,
    .unprepared h.state h.prepared h.destination h.empty h.accepted⟩

/-- The data file is created or found. -/
theorem wp_prepareData (h : Preparing old s record)
    (hfresh : ∀ f, old = some f → kernel.inode ≠ f.ino) :
    wp (prepareData kernel record)
      (fun _ t => Preparing old t record ∧ ∃ file, t.data = some file)
      (fun _ => Sound old requested stuck) (Sound old requested stuck) s := by
  simp only [prepareData, requireRoom, wp_bind, wp_stage]
  refine ⟨fun _ => h.sound, fun folder hfolder => ?_⟩
  cases hdata : folder.data with
  | none =>
    have hnext : Preparing old (setData (some ⟨kernel.inode, true, [], kernel.stamp⟩) s) record := by
      refine h.congr rfl rfl rfl fun file hfile => ?_
      rw [data_setData hfolder, Option.some.injEq] at hfile
      subst hfile
      exact ⟨rfl, hfresh⟩
    simp only [wp_bind, wp_perform, wp_refuseIf]
    exact ⟨hnext.sound, fun _ => hnext.sound, fun _ => ⟨hnext, _, data_setData hfolder _⟩⟩
  | some file =>
    have hfile : s.data = some file := (data_of_staging hfolder).trans hdata
    simp only [wp_bind, wp_refuseIf]
    exact ⟨fun _ => h.sound, fun _ => ⟨fun _ => h.sound, fun _ => ⟨h, file, hfile⟩⟩⟩

/-- The journal is created or found. -/
theorem wp_prepareChunks (h : Preparing old s record) (hfile : ∃ file, s.data = some file) :
    wp (prepareChunks kernel record)
      (fun _ t => Preparing old t record ∧ ∃ file, t.data = some file)
      (fun _ => Sound old requested stuck) (Sound old requested stuck) s := by
  simp only [prepareChunks, requireRoom, wp_bind, wp_stage]
  refine ⟨fun _ => h.sound, fun folder hfolder => ?_⟩
  cases hchunks : folder.chunks with
  | none =>
    have hnext : Preparing old (setChunks (some []) s) record :=
      h.congr rfl rfl rfl fun file hfile => h.empty file (by rwa [data_setChunks] at hfile)
    simp only [wp_bind, wp_perform, wp_refuseIf]
    exact ⟨hnext.sound, fun _ => hnext.sound, fun _ => ⟨hnext, by simpa using hfile⟩⟩
  | some chunks =>
    simp only [wp_bind, wp_refuseIf]
    exact ⟨fun _ => h.sound, fun _ => ⟨fun _ => h.sound, fun _ => ⟨h, hfile⟩⟩⟩

/-- What an action that returned its record leaves behind. -/
def Returned (old : Option File) (requested : Digest → Prop) (stuck : Prop) (record : Record) (s : Node) : Prop :=
  Sound old requested stuck s ∧ s.record = some record

theorem Kept.returned (h : Kept old requested stuck s record) : Returned old requested stuck record s :=
  ⟨.kept record h, h.record_eq⟩

/-- A record that is returned is kept. -/
theorem Returned.kept (h : Returned old requested stuck record s) : Kept old requested stuck s record := by
  obtain ⟨hsound, hrecord⟩ := h
  cases hsound with
  | absent hnone =>
    rw [hrecord] at hnone
    cases hnone
  | kept other h =>
    obtain rfl : other = record := Option.some.inj (h.record_eq.symm.trans hrecord)
    exact h

/-- The record of a transfer that needs no preparation. -/
def Ready (record : Record) : Prop :=
  record.prepared = true ∨ record.state.Terminal ∨ record.state = .discarding

/-- The preparation ends with a record that is ready. -/
theorem Preparing.wp_prepare (h : Preparing old s record)
    (hfresh : ∀ f, old = some f → kernel.inode ≠ f.ino) :
    wp (prepare kernel record) (fun next t => Returned old requested stuck next t ∧ Ready next)
      (fun _ => Sound old requested stuck) (Sound old requested stuck) s := by
  have hnot : ¬(record.prepared = true ∨ record.state.Terminal ∨ record.state = .discarding) := by
    obtain hstate | hstate := h.state <;> simp [h.prepared, hstate, State.Terminal]
  rw [prepare, if_neg hnot]
  have hdirectory : Preparing old { s with staging := s.staging.or (some ⟨none, none⟩) } record := by
    refine h.congr rfl rfl rfl fun file hfile => h.empty file ?_
    cases hstaging : s.staging <;> simp_all [data]
  rw [wp_bind, wp_perform]
  refine ⟨hdirectory.sound, wp_seq (wp_prepareData hdirectory hfresh) ?_⟩
  rintro - t ⟨ht, hfile⟩
  refine wp_seq (wp_prepareChunks ht hfile) ?_
  rintro - u ⟨hu, file, hfile⟩
  have hkept : Kept old requested stuck { u with record := some { record with
      state := .running, prepared := true
      reservedBytes := record.size + journalBytes record.size } } { record with
      state := .running, prepared := true
      reservedBytes := record.size + journalBytes record.size } := by
    refine ⟨rfl, hu.expected, by simp [hu.accepted, hu.offset], nofun, ?_⟩
    exact .receiving (.inl rfl) rfl hu.destination file hfile (by simp [hu.offset, hu.accepted])
      (hu.empty file hfile).2
  rw [wp_bind, wp_save, wp_pure]
  exact ⟨.kept _ hkept, hkept.returned, .inl rfl⟩

end Preparation

section Receiving

variable {old : Option File} {requested : Digest → Prop} {stuck : Prop} {s : Node} {record : Record}
  {kernel : Kernel}

/-- A write leaves what lies before it. -/
theorem take_pwrite {content : Bytes} (bytes : Bytes) {offset : ℕ} (h : offset ≤ content.length) :
    (pwrite 0 content bytes offset).take offset = content.take offset := by
  simp [pwrite, h]

/-- It ends with its bytes. -/
theorem take_pwrite_add {content : Bytes} (bytes : Bytes) {offset : ℕ} (h : offset ≤ content.length) :
    (pwrite 0 content bytes offset).take (offset + bytes.length) = content.take offset ++ bytes := by
  simp [pwrite, h, List.take_append, List.take_take]

/-- A transfer that accepts chunks. -/
structure Filling (old : Option File) (s : Node) (record : Record) (file : File) : Prop where
  record_eq : s.record = some record
  expected : record.expected = old.map File.identity
  length : s.accepted.length = record.offset
  state : record.state = .running
  prepared : record.prepared = true
  destination : s.destination = old
  data : s.data = some file
  content : file.content.take record.offset = s.accepted
  apart : Apart old file

/-- The file holds the accepted bytes. -/
theorem Filling.le_length {file : File} (h : Filling old s record file) :
    record.offset ≤ file.content.length := by
  have hlength := congrArg List.length h.content
  rw [List.length_take, h.length] at hlength
  omega

/-- A write behind the accepted bytes does not change them. -/
theorem Filling.write {file : File} (h : Filling old s record file) {folder : Stage}
    (hfolder : s.staging = some folder) {content : Bytes} (stamp : ℕ)
    (hcontent : content.take record.offset = s.accepted) :
    Filling old (setData (some { file with content, stamp }) s) record
      { file with content, stamp } :=
  ⟨h.record_eq, h.expected, h.length, h.state, h.prepared, h.destination, data_setData hfolder _,
    hcontent, h.apart⟩

theorem Filling.enter {file : File} (h : Filling old s record file)
    (chunks : Option (List Digest)) : Filling old (setChunks chunks s) record file :=
  ⟨h.record_eq, h.expected, h.length, h.state, h.prepared, h.destination,
    (data_setChunks chunks).trans h.data, h.content, h.apart⟩

variable [Hashing]

/-- A transfer that was prepared is not prepared again. -/
theorem Kept.wp_prepare (h : Kept old requested stuck s record) (hfresh : Fresh s kernel) :
    wp (prepare kernel record) (fun next t => Returned old requested stuck next t ∧ Ready next)
      (fun _ => Sound old requested stuck) (Sound old requested stuck) s := by
  have hdone (hskip : Ready record) :
      wp (prepare kernel record) (fun next t => Returned old requested stuck next t ∧ Ready next)
        (fun _ => Sound old requested stuck) (Sound old requested stuck) s := by
    rw [prepare, wp_ite]
    exact ⟨fun _ => wp_pure.mpr ⟨h.returned, hskip⟩, fun hnot => absurd hskip hnot⟩
  cases h.phase with
  | unprepared hstate hprepared hdestination hempty haccepted =>
    have hoffset : record.offset = 0 := by rw [← h.length, haccepted, List.length_nil]
    have hpreparing : Preparing old s record :=
      ⟨h.record_eq, h.expected, hstate, hprepared, hoffset, hdestination, hempty, haccepted⟩
    exact hpreparing.wp_prepare fun f hold => hfresh.ne_ino (hdestination.trans hold)
  | receiving _ hprepared => exact hdone (.inl hprepared)
  | recorded _ _ _ _ _ hcommitted => exact hdone (.inl hcommitted.prepared)
  | renamed _ _ _ hcommitted => exact hdone (.inl hcommitted.prepared)
  | succeeded hstate => exact hdone (.inr (.inl (.inl hstate)))
  | discarded hstate =>
    obtain hstate | hstate := hstate
    · exact hdone (.inr (.inr hstate))
    · exact hdone (.inr (.inl (.inr hstate)))

/-- A transfer is started, or found. -/
theorem Sound.wp_start [Hash (Root × Spec)] (h : Sound old requested stuck s)
    (hfresh : Fresh s kernel) (root : Root) (spec : Spec)
    (preparing : Bool) (limits : Limits) :
    wp (start kernel root spec preparing limits) (Returned old requested stuck)
      (fun _ => Sound old requested stuck) (Sound old requested stuck) s := by
  simp only [start, wp_bind, wp_refuseIf, wp_disk]
  refine ⟨fun _ => h, fun _ => ?_⟩
  cases h with
  | absent hrecord hdestination hstaging haccepted =>
    have hsound : Sound old requested stuck s := .absent hrecord hdestination hstaging haccepted
    rw [hrecord]
    simp only [wp_bind, wp_refuseIf, wp_save, wp_ite, wp_pure]
    refine ⟨fun _ => hsound, fun _ => ⟨fun _ => hsound, fun _ => ⟨fun _ => hsound, fun _ =>
      ⟨fun _ => hsound, fun _ => ⟨fun _ => hsound, fun _ => ?_⟩⟩⟩⟩⟩
    have hpreparing {record : Record} (hexpected : record.expected = s.destination.map File.identity)
        (hstate : record.state = .preparing) (hprepared : record.prepared = false)
        (hoffset : record.offset = 0) : Preparing old { s with record := some record } record :=
      ⟨rfl, hdestination ▸ hexpected, .inl hstate, hprepared, hoffset, hdestination,
        fun file hfile => by simp [data, hstaging] at hfile, haccepted⟩
    refine ⟨(hpreparing rfl rfl rfl rfl).sound, fun _ => ?_, fun _ => ?_⟩
    · have hapart (f : File) (hold : old = some f) : kernel.inode ≠ f.ino :=
        hfresh.ne_ino (hdestination.trans hold)
      exact wp_mono ((hpreparing rfl rfl rfl rfl).wp_prepare hapart) (fun _ _ h => h.1)
        (fun _ _ h => h) fun _ h => h
    · exact ⟨(hpreparing rfl rfl rfl rfl).sound, rfl⟩
  | kept record h =>
    rw [h.record_eq]
    simp only [wp_bind, wp_refuseIf, wp_ite, wp_pure]
    refine ⟨fun _ => .kept record h, fun _ => ⟨fun _ => ?_, fun _ => h.returned⟩⟩
    exact wp_mono (h.wp_prepare hfresh) (fun _ _ h => h.1) (fun _ _ h => h) fun _ h => h

/-- A transfer that is being filled is kept. -/
theorem Filling.kept {file : File} (h : Filling old s record file) :
    Kept old requested stuck s record :=
  ⟨h.record_eq, h.expected, h.length, fun hstate => by simp [h.state] at hstate,
    .receiving (.inl h.state) h.prepared h.destination file h.data h.content h.apart⟩

/-- In the running state the partial file starts with the accepted bytes. -/
theorem Kept.filling (h : Kept old requested stuck s record) (hstate : record.state = .running) :
    ∃ file, Filling old s record file := by
  cases h.phase with
  | unprepared hother => rw [hstate] at hother; simp at hother
  | receiving _ hprepared hdestination file hfile hstart hapart =>
    exact ⟨file, h.record_eq, h.expected, h.length, hstate, hprepared, hdestination, hfile, hstart,
      hapart⟩
  | recorded _ hother => rw [hstate] at hother; cases hother
  | renamed hother => rw [hstate] at hother; cases hother
  | succeeded hother => rw [hstate] at hother; cases hother
  | discarded hother => rw [hstate] at hother; simp at hother

/-- A chunk is accepted. -/
theorem Filling.accept {file : File} (h : Filling old s record file) {bytes : Bytes}
    (hcontent : file.content.take (record.offset + bytes.length) = s.accepted ++ bytes) :
    Kept old requested stuck
      { s with
        record := some { record with offset := record.offset + bytes.length }
        accepted := s.accepted ++ bytes }
      { record with offset := record.offset + bytes.length } :=
  ⟨rfl, h.expected, by simp [h.length], fun hstate => by simp [h.state] at hstate, .receiving (.inl h.state) h.prepared h.destination file
    h.data hcontent h.apart⟩

/-- A chunk keeps the phase wherever it stops. -/
theorem Kept.wp_writeChunk (h : Kept old requested stuck s record) (offset : ℕ) (bytes : Bytes)
    (digest : Option Digest) :
    wp (writeChunk kernel record offset bytes digest) (Returned old requested stuck)
      (fun _ => Sound old requested stuck) (Sound old requested stuck) s := by
  have hsound : Sound old requested stuck s := .kept record h
  simp only [writeChunk, wp_bind, wp_refuseIf]
  refine ⟨fun _ => hsound, fun hoffset => ⟨fun _ => hsound, fun _ => ⟨fun _ => hsound, fun _ =>
    ⟨fun _ => hsound, fun hstate => ?_⟩⟩⟩⟩
  obtain ⟨found, hfilling⟩ := h.filling (not_not.mp hstate)
  refine wp_dataFile hsound fun folder file hfolder hfile => ?_
  refine wp_bind.mpr (wp_journal hsound fun _ chunks _ _ => ?_)
  obtain rfl : found = file :=
    Option.some.inj (hfilling.data.symm.trans ((data_of_staging hfolder).trans hfile))
  rw [wp_ite]
  refine ⟨fun _ => ?_, fun hnext => ?_⟩
  · simp only [wp_bind, wp_refuseIf, wp_pure]
    exact ⟨fun _ => hsound, fun _ => h.returned⟩
  -- The chunk goes right behind the accepted bytes.
  obtain rfl : record.offset = offset :=
    Nat.le_antisymm (not_lt.mp hnext) (not_lt.mp (not_or.mp hoffset).2)
  have hle := hfilling.le_length
  generalize hcontent : (if record.reservedBytes = 0 then found.content.take record.offset
    else found.content) = content
  generalize (if record.reservedBytes = 0 then chunks.take (record.offset / CHUNK)
    else chunks) = chunks
  have hlength : record.offset ≤ content.length := by
    subst hcontent
    split_ifs
    · rw [List.length_take]
      omega
    · exact hle
  have hstart : content.take record.offset = s.accepted := by
    rw [← hfilling.content, ← hcontent]
    split_ifs <;> simp [List.take_take]
  -- What an interrupted write leaves behind the accepted bytes does not matter.
  have hwrite (bytes : Bytes) := hfilling.write hfolder kernel.stamp
    ((take_pwrite bytes hlength).trans hstart)
  have hagain {first second : Option File} :
      setData second (setData first s) = setData second s := by
    simp [setData, Option.map_map, Function.comp_def]
  simp only [wp_bind, wp_perform, wp_pure, hagain]
  refine ⟨.kept _ (hwrite _).kept, .kept _ (hwrite _).kept, .kept _ ((hwrite _).enter _).kept,
    .kept _ (((hwrite _).enter _).enter _).kept, ?_⟩
  have hlast := ((hwrite bytes).enter
    (some (pwrite 0 chunks [kernel.tornDigest] (record.offset / CHUNK)))).enter
      (some (pwrite 0 chunks [Hashing.sha256 bytes] (record.offset / CHUNK)))
  have hkept : Kept old requested stuck _ _ := hlast.accept
    ((take_pwrite_add bytes hlength).trans (congrArg (· ++ bytes) hstart))
  exact ⟨.kept _ hkept, hkept.returned⟩

end Receiving

section Committing

variable {old : Option File} {requested : Digest → Prop} {stuck : Prop} {s : Node} {record : Record}
  {kernel : Kernel}

variable [Hashing]

theorem Phase.mono {destination file : Option File} {accepted : Bytes} {stuck' : Prop}
    (h : Phase old requested stuck destination file accepted record) (himp : stuck → stuck') :
    Phase old requested stuck' destination file accepted record := by
  cases h with
  | unprepared hstate hprepared hdestination hempty haccepted =>
    exact .unprepared hstate hprepared hdestination hempty haccepted
  | receiving hstate hprepared hdestination file hfile hstart hapart =>
    exact .receiving hstate hprepared hdestination file hfile hstart hapart
  | recorded hstuck hstate hdestination file hfile h =>
    exact .recorded (himp hstuck) hstate hdestination file hfile h
  | renamed hstate file hdestination h hdisplaced hmoved =>
    exact .renamed hstate file hdestination h hdisplaced hmoved
  | succeeded hstate file hdestination h hmoved => exact .succeeded hstate file hdestination h hmoved
  | discarded hstate hdestination => exact .discarded hstate hdestination

theorem Kept.mono {stuck' : Prop} (h : Kept old requested stuck s record)
    (himp : stuck → stuck') : Kept old requested stuck' s record :=
  ⟨h.record_eq, h.expected, h.length, h.staged, h.phase.mono himp⟩

omit [Hashing] in
/-- A displaced file that is shortened is still the displaced one. -/
theorem Displaced.take {accepted : Bytes} {file : File} (h : Displaced old accepted file)
    (stamp : ℕ) : Displaced old accepted
      { file with content := file.content.take accepted.length, stamp } := by
  obtain ⟨f, hold, hino, hregular, hcontent | hcontent⟩ := h
  · exact ⟨f, hold, hino, hregular, .inr (congrArg _ hcontent)⟩
  · exact ⟨f, hold, hino, hregular, .inr (by rw [hcontent, List.take_take, Nat.min_self])⟩

/-- The partial file may be shortened to the length of the accepted bytes, whichever file is in the
staging directory at the time. -/
theorem Phase.shorten {destination : Option File} {file : File} {accepted : Bytes}
    (h : Phase old requested stuck destination (some file) accepted record)
    (hlength : accepted.length = record.offset) (stamp : ℕ) :
    Phase old requested stuck destination
      (some { file with content := file.content.take record.offset, stamp }) accepted record := by
  cases h with
  | unprepared hstate hprepared hdestination hempty haccepted =>
    refine .unprepared hstate hprepared hdestination (fun other hother => ?_) haccepted
    obtain rfl := Option.some.inj hother
    exact ⟨by simp [(hempty file rfl).1], (hempty file rfl).2⟩
  | receiving hstate hprepared hdestination other hother hstart hapart =>
    obtain rfl := Option.some.inj hother
    refine .receiving hstate hprepared hdestination _ rfl ?_ hapart
    rw [List.take_take, Nat.min_self]
    exact hstart
  | recorded hstuck hstate hdestination other hother hcommitted =>
    obtain rfl := Option.some.inj hother
    refine .recorded hstuck hstate hdestination _ rfl ⟨?_, hcommitted.complete, hcommitted.prepared,
      hcommitted.digest, hcommitted.requested, hcommitted.committed, hcommitted.apart⟩
    rw [hcommitted.content, ← hlength, List.take_length]
  | renamed hstate other hdestination hcommitted hdisplaced hmoved =>
    refine .renamed hstate other hdestination hcommitted (fun _ => rfl) fun moved hother => ?_
    obtain rfl := Option.some.inj hother
    exact hlength ▸ (hmoved file rfl).take stamp
  | succeeded hstate other hdestination hcommitted hmoved =>
    refine .succeeded hstate other hdestination hcommitted fun moved hother => ?_
    obtain rfl := Option.some.inj hother
    exact hlength ▸ (hmoved file rfl).take stamp
  | discarded hstate hdestination => exact .discarded hstate hdestination

/-- The partial file is verified with the digest that it has. -/
def Verified (s : Node) (record : Record) (hashed : Digest) : Prop :=
  ∃ file chunks, s.staging = some ⟨some file, some chunks⟩ ∧
    readPrefix record file.content chunks = .ok hashed

/-- The verification returns the digest of the prefix of the partial file. When the transfer is
complete, the file is no longer than the prefix afterwards. -/
theorem Kept.wp_verifyPrefix (h : Kept old requested stuck s record) :
    wp (verifyPrefix kernel record)
      (fun hashed t => Kept old requested stuck t record ∧ Verified s record hashed ∧
        ∃ folder file, t.staging = some folder ∧ folder.data = some file ∧
          hashed = Hashing.sha256 (file.content.take record.offset) ∧
            (record.offset = record.size → file.content.take record.offset = file.content))
      (fun _ => Sound old requested stuck) (Sound old requested stuck) s := by
  have hsound : Sound old requested stuck s := .kept record h
  simp only [verifyPrefix, wp_bind]
  refine wp_dataFile hsound fun folder file hfolder hfile => ?_
  refine wp_bind.mpr (wp_journal hsound fun folder' chunks hfolder' hchunks => ?_)
  obtain rfl : folder = folder' := Option.some.inj (hfolder.symm.trans hfolder')
  simp only [wp_bind, wp_check]
  refine ⟨fun hashed hread => ?_, fun _ _ => hsound⟩
  have hbytes := readPrefix_eq_ok hread
  have hverified : Verified s record hashed := by
    refine ⟨file, chunks, ?_, hread⟩
    rw [hfolder, ← hfile, ← hchunks]
  simp only [wp_bind, wp_ite, wp_perform, wp_pure]
  refine ⟨fun _ => ?_, fun hlong => ?_⟩
  · have hphase := h.phase
    rw [data_of_staging hfolder, hfile] at hphase
    have hshort : Kept old requested stuck (setData (some { file with
        content := file.content.take record.offset, stamp := kernel.stamp }) s) record :=
      ⟨h.record_eq, h.expected, h.length, fun _ => by simp [setData, hfolder],
        (data_setData hfolder _).symm ▸ hphase.shorten h.length kernel.stamp⟩
    have hentered (chunks : Option (List Digest)) : Kept old requested stuck (setChunks chunks
        (setData (some { file with
          content := file.content.take record.offset, stamp := kernel.stamp }) s)) record :=
      ⟨hshort.record_eq, hshort.expected, hshort.length,
        fun _ => by simp [setChunks, setData, hfolder],
        (data_setChunks chunks).symm ▸ hshort.phase⟩
    refine ⟨.kept _ hshort, .kept _ (hentered _), hentered _, hverified,
      ⟨some { file with content := file.content.take record.offset, stamp := kernel.stamp },
        some (chunks.take (journalEntries record.offset))⟩, _, ?_, rfl, ?_, fun _ => ?_⟩
    · simp only [setChunks, setData, hfolder, Option.map_some]
    · simp [hbytes, List.take_take]
    · simp [List.take_take]
  · refine ⟨h, hverified, folder, file, hfolder, hfile, hbytes, fun hsize => ?_⟩
    exact absurd (.inr hsize) hlong

theorem wp_requireDestination (h : Sound old requested stuck s) :
    wp (requireDestination record) (fun _ t => t = s) (fun _ => Sound old requested stuck)
      (Sound old requested stuck) s := by
  simp only [requireDestination, wp_bind, wp_disk]
  cases record.expected with
  | none =>
    simp only [wp_refuseIf]
    exact ⟨fun _ => h, fun _ => trivial⟩
  | some expected =>
    simp only [wp_bind, wp_demand, wp_refuseIf]
    exact ⟨fun _ => h, fun _ _ => ⟨fun _ => h, fun _ => trivial⟩⟩

/-- The state after the files have changed places. -/
def exchanged (kernel : Kernel) (file : File) (s : Node) : Node :=
  { setData (s.destination.map fun old => { old with stamp := kernel.stamp }) s with
    destination := some { file with stamp := kernel.stamp } }

omit [Hashing] in
/-- The rename exchanges the staged file and the destination. -/
theorem rename_eq {file : File} {chunks : Option (List Digest)}
    (h : record.expected = s.destination.map File.identity)
    (hstaging : s.staging = some ⟨some file, chunks⟩) :
    rename kernel record.expected.isSome s = ⟨[exchanged kernel file s], .ok ()⟩ := by
  cases hdestination : s.destination <;>
    simp [rename, disk, dataFile, stage, demand, check, orRaise, bind, followedBy, perform,
      exchanged, h, hdestination, hstaging]

/-- The new file is at the destination, and the old one in the staging directory. -/
theorem Kept.exchanged {file : File} {chunks : Option (List Digest)}
    (h : Kept old requested True s record) (hstate : record.state = .committing)
    (hdestination : s.destination = old) (hstaging : s.staging = some ⟨some file, chunks⟩)
    (hcommitted : Committed old requested s.accepted record file) :
    Kept old requested stuck (exchanged kernel file s) record := by
  have hpublished : Committed old requested s.accepted record { file with stamp := kernel.stamp } :=
    ⟨hcommitted.content, hcommitted.complete, hcommitted.prepared, hcommitted.digest,
      hcommitted.requested, hcommitted.committed, hcommitted.apart⟩
  have hdata : (Node.exchanged kernel file s).data =
      old.map fun f => { f with stamp := kernel.stamp } :=
    (data_setData hstaging _).trans (by rw [hdestination])
  refine ⟨h.record_eq, h.expected, h.length, fun _ => ?_, ?_⟩
  · simp [Node.exchanged, setData, hstaging]
  rw [hdata]
  refine .renamed hstate _ rfl hpublished (by simp) fun moved hmoved => ?_
  obtain ⟨f, hold, rfl⟩ := Option.map_eq_some_iff.mp hmoved
  exact ⟨f, hold, rfl, rfl, .inl rfl⟩

/-- The first half of a commit. -/
theorem Kept.wp_publish (h : Kept old requested stuck s record) (hstate : record.state = .running)
    (hcomplete : record.offset = record.size) {digest : Option Digest}
    (hrequested : ∀ d, digest = some d → requested d)
    (hstuck : ∀ d, digest = some d → Verified s record d → stuck) :
    wp (publish kernel digest record)
      (fun next t => Kept old requested stuck t next ∧ next.state = .committing)
      (fun _ => Sound old requested stuck) (Sound old requested stuck) s := by
  refine wp_seq h.wp_verifyPrefix ?_
  rintro hashed t ⟨ht, hverified, folder, file, hfolder, hfile, rfl, hshort⟩
  have hsound : Sound old requested stuck t := .kept record ht
  obtain ⟨found, hfilling⟩ := ht.filling hstate
  obtain rfl : found = file :=
    Option.some.inj (hfilling.data.symm.trans ((data_of_staging hfolder).trans hfile))
  have hcontent : found.content = t.accepted := (hshort hcomplete).symm.trans hfilling.content
  rw [wp_bind, wp_refuseIf]
  refine ⟨fun _ => hsound, fun hdigest => wp_bind.mpr (wp_dataFile hsound fun folder' file' hfolder'
    hfile' => ?_)⟩
  obtain rfl : folder = folder' := Option.some.inj (hfolder.symm.trans hfolder')
  obtain rfl : found = file' := Option.some.inj (hfile.symm.trans hfile')
  have hallowed : stuck := hstuck _ (not_not.mp hdigest) hverified
  rw [hshort hcomplete, hcontent] at hdigest
  -- The record of the commit, and the file that it names.
  generalize hnext : { record with
    committedIdentity := some found.identity, state := State.committing
    sha256 := some (Hashing.sha256 (found.content.take record.offset)) } = next
  have hcommitted : Committed old requested t.accepted next found := by
    subst hnext
    refine ⟨hcontent, hcomplete, hfilling.prepared, ?_, hrequested _ (not_not.mp hdigest),
      ⟨found.identity, rfl, rfl, rfl⟩, hfilling.apart⟩
    exact congrArg (some ∘ Hashing.sha256) ((hshort hcomplete).trans hcontent)
  have hsaved : Kept old requested stuck { t with record := some next } next := by
    subst hnext
    exact ⟨rfl, hfilling.expected, hfilling.length, fun _ => by simp [hfolder],
      .recorded hallowed rfl hfilling.destination found hfilling.data hcommitted⟩
  have hstate' : next.state = .committing := by rw [← hnext]
  refine wp_seq (wp_requireDestination hsound) fun _ u hu => ?_
  subst hu
  rw [wp_bind, wp_save]
  have hstaging : u.staging = some ⟨some found, folder.chunks⟩ := by rw [hfolder, ← hfile]
  have hexpected : next.expected = u.destination.map File.identity := by
    rw [← hnext, hfilling.destination]
    exact hfilling.expected
  have hmoved : Kept old requested stuck (Node.exchanged kernel found { u with record := some next })
      next := (hsaved.mono fun _ => trivial).exchanged hstate' hfilling.destination hstaging hcommitted
  refine ⟨.kept _ hsaved, ?_⟩
  have hrename : rename kernel next.expected.isSome { u with record := some next } =
      ⟨[Node.exchanged kernel found { u with record := some next }], .ok ()⟩ :=
    rename_eq hexpected hstaging
  rw [wp, bind_eq_of_ok hrename, last_singleton]
  refine ⟨fun v hv => ?_, hmoved, hstate'⟩
  obtain rfl : v = Node.exchanged kernel found { u with record := some next } := by
    simpa [pure, returns] using hv
  exact .kept _ hmoved

end Committing

section Finishing

variable {old : Option File} {requested : Digest → Prop} {stuck : Prop} {s : Node} {record : Record}
  {kernel : Kernel} [Hashing]

/-- A transfer that succeeded. -/
structure Published (old : Option File) (requested : Digest → Prop) (s : Node) (record : Record)
    (file : File) : Prop where
  record_eq : s.record = some record
  expected : record.expected = old.map File.identity
  length : s.accepted.length = record.offset
  state : record.state = .succeeded
  destination : s.destination = some file
  committed : Committed old requested s.accepted record file
  moved : ∀ moved, s.data = some moved → Displaced old s.accepted moved

/-- A published transfer is kept. -/
theorem Published.kept {file : File} (h : Published old requested s record file) :
    Kept old requested stuck s record :=
  ⟨h.record_eq, h.expected, h.length, fun hstate => by simp [h.state] at hstate,
    .succeeded h.state file h.destination h.committed h.moved⟩

/-- A transfer that succeeded is published. -/
theorem Kept.published (h : Kept old requested stuck s record) (hstate : record.state = .succeeded) :
    ∃ file, Published old requested s record file := by
  cases h.phase with
  | unprepared hother => rw [hstate] at hother; simp at hother
  | receiving hother => rw [hstate] at hother; simp at hother
  | recorded _ hother => rw [hstate] at hother; cases hother
  | renamed hother => rw [hstate] at hother; cases hother
  | succeeded _ file hdestination hcommitted hmoved =>
    exact ⟨file, h.record_eq, h.expected, h.length, hstate, hdestination, hcommitted, hmoved⟩
  | discarded hother => rw [hstate] at hother; simp at hother

/-- The staging directory of a transfer that succeeded can go. -/
theorem Published.clean {file : File} (h : Published old requested s record file) {t : Node}
    (hrecord : t.record = s.record) (hdestination : t.destination = s.destination)
    (haccepted : t.accepted = s.accepted) (hdata : t.data = none) :
    Published old requested t record file :=
  ⟨hrecord.trans h.record_eq, h.expected, haccepted ▸ h.length, h.state,
    hdestination.trans h.destination, haccepted ▸ h.committed, by simp [hdata]⟩

/-- The removal of the stage leaves the published file. -/
theorem Published.wp_removeStage {file : File} (h : Published old requested s record file) :
    wp (removeStage record) (fun _ t => Published old requested t record file)
      (fun _ t => Published old requested t record file) (Sound old requested stuck) s := by
  simp only [removeStage, wp_bind, wp_disk]
  cases hstaging : s.staging with
  | none =>
    simp only [wp_pure]
    exact h
  | some folder =>
    -- The displaced file is gone, or there was none.
    have hdisplaced : wp (removeDisplaced record folder)
        (fun _ t => Published old requested t record file ∧ t.data = none)
        (fun _ t => Published old requested t record file) (Sound old requested stuck) s := by
      unfold removeDisplaced
      cases hdata : folder.data with
      | none =>
        simp only [wp_pure]
        exact ⟨h, (data_of_staging hstaging).trans hdata⟩
      | some moved =>
        simp only [wp_bind, wp_refuseIf, wp_perform]
        have hnone := data_setData hstaging none
        have hdeleted : Published old requested (setData none s) record file :=
          h.clean rfl rfl rfl hnone
        exact ⟨fun _ => h, fun _ => ⟨.kept _ hdeleted.kept, hdeleted, hnone⟩⟩
    refine wp_seq hdisplaced ?_
    rintro - t ⟨ht, hnone⟩
    have hchunks : Published old requested (setChunks none t) record file :=
      ht.clean rfl rfl rfl ((data_setChunks none).trans hnone)
    have hgone : Published old requested { setChunks none t with staging := none } record file :=
      ht.clean rfl rfl rfl rfl
    simp only [wp_bind, wp_perform]
    exact ⟨.kept _ hchunks.kept, .kept _ hgone.kept, hgone⟩

/-- So does the whole cleanup. -/
theorem Published.wp_cleanup {file : File} (h : Published old requested s record file) :
    wp (cleanup record)
      (fun next t => Published old requested t next file ∧ next.downloads = record.downloads)
      (fun _ t => ∃ next, Published old requested t next file) (Sound old requested stuck) s := by
  rw [cleanup, wp_ite]
  refine ⟨fun _ => ?_, fun _ => ?_⟩
  · rw [wp_pure]
    exact ⟨h, rfl⟩
  refine wp_bind.mpr (wp_mono h.wp_removeStage (fun _ t ht => ?_) (fun _ _ ht => ⟨record, ht⟩)
    fun _ h => h)
  have hnext : Published old requested { t with record := some { record with
      cleanupPending := false } } { record with cleanupPending := false } file :=
    ⟨rfl, ht.expected, ht.length, ht.state, ht.destination,
      ⟨ht.committed.content, ht.committed.complete, ht.committed.prepared, ht.committed.digest,
        ht.committed.requested, ht.committed.committed, ht.committed.apart⟩, ht.moved⟩
  rw [wp_bind, wp_save, wp_pure]
  exact ⟨.kept _ hnext.kept, hnext, rfl⟩

theorem wp_requireDisplaced (h : Sound old requested stuck s) :
    wp (requireDisplaced record) (fun _ t => t = s) (fun _ => Sound old requested stuck)
      (Sound old requested stuck) s := by
  unfold requireDisplaced
  cases record.expected with
  | none =>
    simp only [wp_pure]
  | some expected =>
    refine wp_bind.mpr (wp_dataFile h fun folder file hfolder hfile => ?_)
    rw [wp_refuseIf]
    exact ⟨fun _ => h, fun _ => rfl⟩

/-- The second half of a commit. It raises unless the files have changed places. -/
theorem Kept.wp_confirm (h : Kept old requested stuck s record) (hstate : record.state = .committing) :
    wp (confirm record) (fun next t => ∃ file, Published old requested t next file)
      (fun _ => Sound old requested stuck) (Sound old requested stuck) s := by
  have hsound : Sound old requested stuck s := .kept record h
  simp only [confirm, wp_bind, wp_disk, wp_demand, wp_refuseIf]
  refine ⟨fun _ => hsound, fun published hpublished => ⟨fun _ => hsound, fun hfound => ?_⟩⟩
  rw [not_or] at hfound
  have hrenamed : ∃ file, s.destination = some file ∧
      Committed old requested s.accepted record file ∧
        ∀ moved, s.data = some moved → Displaced old s.accepted moved := by
    cases h.phase with
    | unprepared hother => rw [hstate] at hother; simp at hother
    | receiving hother => rw [hstate] at hother; simp at hother
    | recorded _ _ hdestination file hfile hcommitted =>
      -- The old file has another inode than the one that was committed.
      obtain ⟨identity, hidentity, hino, -⟩ := hcommitted.committed
      obtain ⟨hsame, -⟩ : published.ino = identity.ino ∧ published.regular = identity.regular := by
        have hany := hfound.1
        simp only [hidentity, Option.any_some, same, File.identity, if_true, Bool.not_eq_true',
          Bool.not_eq_false] at hany
        exact of_decide_eq_true hany
      exact absurd (hino.symm.trans hsame.symm)
        (hcommitted.apart published (hdestination.symm.trans hpublished))
    | renamed _ file hdestination hcommitted _ hmoved =>
      exact ⟨file, hdestination, hcommitted, hmoved⟩
    | succeeded hother => rw [hstate] at hother; cases hother
    | discarded hother => rw [hstate] at hother; simp at hother
  obtain ⟨file, hdestination, hcommitted, hmoved⟩ := hrenamed
  refine wp_mono (wp_requireDisplaced hsound) (fun _ t ht => ?_) (fun _ _ h => h) fun _ h => h
  subst ht
  have hnext : Published old requested { t with record := some { record with
      publishedIdentity := some published.identity, state := .succeeded
      cleanupPending := true } } { record with
      publishedIdentity := some published.identity, state := .succeeded
      cleanupPending := true } file :=
    ⟨rfl, h.expected, h.length, rfl, hdestination,
      ⟨hcommitted.content, hcommitted.complete, hcommitted.prepared, hcommitted.digest,
        hcommitted.requested, hcommitted.committed, hcommitted.apart⟩, hmoved⟩
  rw [wp_bind, wp_save, wp_pure]
  exact ⟨.kept _ hnext.kept, file, hnext⟩

/-- The second half of a commit, with the cleanup. -/
def conclude (record : Record) : Action Record := do
  let record ← confirm record
  recovering (cleanup record) record

/-- Reconciliation keeps the phase. -/
theorem Kept.wp_conclude (h : Kept old requested stuck s record)
    (hstate : record.state = .committing) :
    wp (conclude record)
      (fun next t => Sound old requested stuck t ∧ ∃ last, t.record = some last ∧
        last.state = next.state)
      (fun _ => Sound old requested stuck) (Sound old requested stuck) s := by
  refine wp_seq (h.wp_confirm hstate) ?_
  rintro done t ⟨file, ht⟩
  rw [wp_recovering]
  refine wp_mono ht.wp_cleanup ?_ ?_ fun _ h => h
  · rintro final u ⟨hu, -⟩
    exact ⟨.kept _ hu.kept, final, hu.record_eq, rfl⟩
  · -- A cleanup that failed is repeated later.
    rintro - u ⟨final, hu⟩
    exact ⟨.kept _ hu.kept, final, hu.record_eq, hu.state.trans ht.state.symm⟩

/-- A commit keeps the phase wherever it stops. -/
theorem Kept.wp_commit (h : Kept old requested stuck s record) {digest : Option Digest}
    (hrequested : ∀ d, digest = some d → requested d)
    (hstuck : record.state = .running → record.offset = record.size → ∀ d, digest = some d →
      Verified s record d → stuck) :
    wp (commit kernel record digest)
      (fun next t => Sound old requested stuck t ∧ ∃ last, t.record = some last ∧
        last.state = next.state)
      (fun _ => Sound old requested stuck) (Sound old requested stuck) s := by
  have hsound : Sound old requested stuck s := .kept record h
  rw [commit, wp_ite]
  refine ⟨fun _ => ?_, fun _ => ?_⟩
  · rw [wp_pure]
    exact ⟨hsound, record, h.record_eq, rfl⟩
  simp only [wp_bind, wp_refuseIf, wp_stage]
  refine ⟨fun _ => hsound, fun hready => ⟨fun _ => hsound, fun _ _ => ?_⟩⟩
  rw [not_or, not_not, not_not] at hready
  by_cases hrunning : record.state = .running
  · rw [if_pos hrunning]
    exact wp_seq (h.wp_publish hrunning hready.1 hrequested (hstuck hrunning hready.1))
      fun next t ht => ht.1.wp_conclude ht.2
  · rw [if_neg hrunning, wp_bind, wp_pure]
    exact h.wp_conclude (hready.2.resolve_left hrunning)

/-- A resumption keeps the phase. -/
theorem Kept.wp_resume (h : Kept old requested stuck s record) (hfresh : Fresh s kernel) :
    wp (resume kernel record) (Returned old requested stuck) (fun _ => Sound old requested stuck)
      (Sound old requested stuck) s := by
  refine wp_seq (h.wp_prepare hfresh) ?_
  rintro next t ⟨hreturned, hready⟩
  have hkept := hreturned.kept
  rw [wp_bind, wp_refuseIf]
  refine ⟨fun _ => hreturned.1, fun hstate => wp_seq hkept.wp_verifyPrefix ?_⟩
  rintro hashed u ⟨hu, -⟩
  rw [not_not] at hstate
  have hnext : Kept old requested stuck { u with record := some { next with
      prefixSha256 := some hashed, state := .running } }
      { next with prefixSha256 := some hashed, state := .running } := by
    refine ⟨rfl, hu.expected, hu.length, nofun, ?_⟩
    cases hu.phase with
    | unprepared _ hprepared =>
      -- The preparation has just been done.
      obtain hother | hother | hother := hready
      · rw [hprepared] at hother
        cases hother
      · obtain hother | hother := hother <;> rw [hother] at hstate <;> simp at hstate
      · rw [hother] at hstate
        simp at hstate
    | receiving _ hprepared hdestination file hfile hstart hapart =>
      exact .receiving (.inl rfl) hprepared hdestination file hfile hstart hapart
    | recorded _ hother => rw [hother] at hstate; simp at hstate
    | renamed hother => rw [hother] at hstate; simp at hstate
    | succeeded hother => rw [hother] at hstate; simp at hstate
    | discarded hother =>
      obtain hother | hother := hother <;> rw [hother] at hstate <;> simp at hstate
  rw [wp_bind, wp_save, wp_pure]
  exact ⟨.kept _ hnext, hnext.returned⟩

theorem wp_removePartial {after : Record} (hrecord : s.record = some after)
    (hexpected : after.expected = old.map File.identity)
    (hlength : s.accepted.length = after.offset) (hstate : after.state = .discarding)
    (hdestination : s.destination = old) :
    wp removePartial (fun _ t => t.destination = old ∧ t.accepted = s.accepted)
      (fun _ => Sound old requested stuck) (Sound old requested stuck) s := by
  have hkept {t : Node} (hrecord' : t.record = s.record) (hdest : t.destination = s.destination)
      (haccepted : t.accepted = s.accepted) : Sound old requested stuck t :=
    .kept after ⟨hrecord'.trans hrecord, hexpected, haccepted ▸ hlength,
      fun hother => by simp [hstate] at hother,
      .discarded (.inl hstate) (hdest.trans hdestination)⟩
  simp only [removePartial, wp_bind, wp_disk, wp_ite, wp_pure, wp_perform]
  exact ⟨fun _ => ⟨hdestination, trivial⟩, fun _ => ⟨hkept rfl rfl rfl, hkept rfl rfl rfl,
    hkept rfl rfl rfl, hdestination, rfl⟩⟩

/-- A transfer that was not committed is discarded. -/
theorem Kept.wp_discard (h : Kept old requested stuck s record) (hdestination : s.destination = old) :
    wp (discard record) (Returned old requested stuck) (fun _ => Sound old requested stuck)
      (Sound old requested stuck) s := by
  have hdiscarding : Kept old requested stuck { s with record := some { record with
      state := .discarding } } { record with state := .discarding } :=
    ⟨rfl, h.expected, h.length, nofun, .discarded (.inl rfl) hdestination⟩
  rw [discard, wp_bind, wp_save]
  refine ⟨.kept _ hdiscarding, wp_seq (wp_removePartial rfl h.expected h.length rfl hdestination) ?_⟩
  rintro - t ⟨hdest, haccepted⟩
  have hnext : Kept old requested stuck { t with record := some { record with state := .cancelled } }
      { record with state := .cancelled } := by
    refine ⟨rfl, h.expected, ?_, nofun, .discarded (.inr rfl) hdest⟩
    rw [haccepted]
    exact h.length
  rw [wp_bind, wp_save, wp_pure]
  exact ⟨.kept _ hnext, hnext.returned⟩

/-- Everything but the deletion of a download that was published. -/
theorem Kept.wp_cancel (h : Kept old requested stuck s record) {discardPartial : Bool}
    (hretains : ¬(discardPartial = true ∧ record.state = .succeeded ∧ record.downloads = true)) :
    wp (cancel record discardPartial) (Returned old requested stuck) (fun _ => Sound old requested stuck)
      (Sound old requested stuck) s := by
  have hsound : Sound old requested stuck s := .kept record h
  simp only [cancel, wp_bind, wp_refuseIf, wp_ite, wp_pure]
  refine ⟨fun _ => hsound, fun hcommitting => ⟨fun hsucceeded => ?_, fun hsucceeded =>
    ⟨fun _ => h.returned, fun hcancelled => ?_⟩⟩⟩
  · obtain ⟨file, hpublished⟩ := h.published hsucceeded
    refine wp_mono hpublished.wp_cleanup ?_ (fun _ _ hfailed => .kept _ hfailed.choose_spec.kept)
      fun _ h => h
    rintro next t ⟨ht, hdownloads⟩
    rw [wp_ite, wp_pure]
    refine ⟨fun hdelete => ?_, fun _ => ht.kept.returned⟩
    rw [hdownloads] at hdelete
    exact absurd ⟨hdelete.1, hsucceeded, hdelete.2⟩ hretains
  -- Before a commit the destination is the old file.
  have hnext {next : Record} (hexpected : next.expected = record.expected)
      (hoffset : next.offset = record.offset) (hprepared : next.prepared = record.prepared)
      (hinterrupted : next.state = .interrupted) (hother : record.state ≠ .discarding) :
      Kept old requested stuck { s with record := some next } next := by
    refine ⟨rfl, hexpected.trans h.expected, h.length.trans hoffset.symm,
      fun hcommits => by simp [hinterrupted] at hcommits, ?_⟩
    cases h.phase with
    | unprepared _ hnot hdestination hempty haccepted =>
      exact .unprepared (.inr hinterrupted) (hprepared.trans hnot) hdestination hempty haccepted
    | receiving _ hdone hdestination file hfile hstart hapart =>
      exact .receiving (.inr hinterrupted) (hprepared.trans hdone) hdestination file hfile
        (hoffset ▸ hstart) hapart
    | recorded _ hstate => exact absurd hstate hcommitting
    | renamed hstate => exact absurd hstate hcommitting
    | succeeded hstate => exact absurd hstate hsucceeded
    | discarded hstate => exact absurd hstate (not_or.mpr ⟨hother, hcancelled⟩)
  have hdestination : s.destination = old := by
    cases h.phase with
    | unprepared _ _ hdestination => exact hdestination
    | receiving _ _ hdestination => exact hdestination
    | recorded _ _ hdestination => exact hdestination
    | renamed hstate => exact absurd hstate hcommitting
    | succeeded hstate => exact absurd hstate hsucceeded
    | discarded _ hdestination => exact hdestination
  refine ⟨fun _ => h.wp_discard hdestination, fun _ => ⟨fun _ => h.returned, fun hother => ?_⟩⟩
  have hkept : Kept old requested stuck { s with record := some { record with state := .interrupted } }
      { record with state := .interrupted } := hnext rfl rfl rfl rfl hother
  rw [wp_save, wp_pure]
  exact ⟨.kept _ hkept, hkept.returned⟩

end Finishing

end Ficc.Transfers.Node
