import Ficc.Foundations.Durable
import Ficc.Execution.Spec

/-!
# File transfers on a node

One transfer as the node helper keeps it: the destination, the private staging directory next to it
with the partial file and the journal of chunk digests, and the record. An action holds the lock of
the namespace from its start to its end, so actions follow one another, and each is a program with
durable steps that can be stopped between any two of them.

A file is its inode number, its content, and a stamp for its two times. What the kernel gives (the
inode of a new file, the stamp of a change, free space, and the bytes that an interrupted write
leaves behind) is an input of the action. Checks of owners and modes are left out: the staging
directory is private and nobody else touches it or the destination.
-/

namespace Ficc.Transfers

open Execution (Identity Digest Hash)
open Durable (perform disk check refuseIf demand recovering)

/-- The content of a file. -/
abbrev Bytes : Type := List UInt8

/-- The length of a chunk. -/
def CHUNK : ℕ := 262144

/-- The largest offset of a file. -/
def MAX_FILE : ℕ := 2 ^ 63 - 1

/-- What a file is recognised by. -/
structure FileIdentity where
  ino : ℕ
  regular : Bool
  size : ℕ
  stamp : ℕ
deriving DecidableEq

/-- A file. -/
structure File where
  ino : ℕ
  regular : Bool
  content : Bytes
  stamp : ℕ
deriving DecidableEq

def File.identity (file : File) : FileIdentity :=
  { ino := file.ino, regular := file.regular, size := file.content.length, stamp := file.stamp }

/-- Two identities agree, or only their inodes and types. -/
def same (current expected : FileIdentity) (directory : Bool) : Bool :=
  if directory then decide (current.ino = expected.ino ∧ current.regular = expected.regular)
  else decide (current = expected)

/-- Reads a range of a file. -/
def pread (content : Bytes) (length offset : ℕ) : Bytes := (content.drop offset).take length

/-- Writes at an offset. A gap is filled with zeros. -/
def pwrite {α : Type} (zero : α) (content data : List α) (offset : ℕ) : List α :=
  content.take offset ++ List.replicate (offset - content.length) zero ++ data ++
    content.drop (offset + data.length)

/-- The length of the journal for a file, in digests. -/
def journalEntries (size : ℕ) : ℕ := (size + CHUNK - 1) / CHUNK

/-- The length of the journal for a file. -/
def journalBytes (size : ℕ) : ℕ := journalEntries size * 32

inductive Algorithm
  | sha256 | sha256Chain
deriving DecidableEq

/-- The digest of a whole source. -/
structure Manifest where
  algorithm : Algorithm
  digest : Digest
deriving DecidableEq

/-- The hash functions of a transfer. -/
class Hashing where
  sha256 : Bytes → Digest
  /-- The start of a chain of chunk digests, for the size of the file. -/
  chainSeed : ℕ → Digest
  chainNext : Digest → Digest → Digest

open Hashing (sha256 chainSeed chainNext)

inductive State
  | preparing | running | interrupted | committing | succeeded | discarding | cancelled
deriving DecidableEq

/-- The transfer is over. -/
def State.Terminal (state : State) : Prop := state = .succeeded ∨ state = .cancelled

instance : DecidablePred State.Terminal := fun _ => inferInstanceAs (Decidable (_ ∨ _))

/-- The record of a transfer. -/
structure Record where
  digest : Digest
  rootId : Identity
  downloads : Bool
  cleanupPending : Bool
  prepared : Bool
  expected : Option FileIdentity
  size : ℕ
  offset : ℕ
  sha256 : Option Digest
  prefixSha256 : Option Digest
  sourceManifest : Option Manifest
  freeBytes : ℕ
  state : State
  committedIdentity : Option FileIdentity
  publishedIdentity : Option FileIdentity
  reservedBytes : ℕ
deriving DecidableEq

/-- The staging directory. -/
structure Stage where
  data : Option File
  chunks : Option (List Digest)
deriving DecidableEq

/-- The files of a transfer and its record. The accepted bytes are not read by any action. -/
structure Node where
  destination : Option File
  staging : Option Stage
  record : Option Record
  /-- The chunks that have been accepted, one after the other. -/
  accepted : Bytes
deriving DecidableEq

/-- What an action raises. -/
inductive FileError
  | error (code message : String)
  /-- `FileNotFoundError` -/
  | missing
deriving DecidableEq

/-- What the kernel gives to an action. -/
structure Kernel where
  /-- The inode of a file that is created. -/
  inode : ℕ
  /-- The time of a change. -/
  stamp : ℕ
  /-- What an interrupted write leaves behind, no longer than the chunk. -/
  torn : Bytes
  tornDigest : Digest
  /-- The free space, and the blocks that a new file already has. -/
  available : ℕ
  blocks : ℕ

/-- The registered directory, as far as a transfer asks. -/
structure Root where
  id : Identity
  readOnly : Bool
  /-- The directory is the controller's spool of downloads. -/
  downloads : Bool
deriving DecidableEq

/-- What is to be transferred. -/
structure Spec where
  size : ℕ
  expected : Option FileIdentity
  sourceManifest : Option Manifest
  /-- The parent directory, the name and the identity of the source. -/
  text : String
deriving DecidableEq

/-- The limits of a request and the transfers that count against them. -/
structure Limits where
  retainedBytes : Option ℕ
  freeBytes : ℕ
  count : ℕ
  reserved : ℕ
  records : ℕ

/-- A request to the node. -/
inductive Request
  | start (spec : Spec) (prepare : Bool) (limits : Limits)
  | write (offset : ℕ) (data : Bytes) (sha256 : Option Digest)
  | resume
  | commit (sha256 : Option Digest)
  | cancel (discardPartial : Bool)
  | status
  | verify

namespace Node

/-- An action on the node. -/
abbrev Action (α : Type) : Type := Durable Node FileError α

/-- Writes the record. -/
def save (record : Record) : Action Unit := perform fun s => { s with record := some record }

/-- Opens the staging directory. -/
def stage : Action Stage := do
  let s ← disk
  demand s.staging .missing

/-- Opens the partial file. -/
def dataFile : Action File := do
  let folder ← stage
  demand folder.data .missing

/-- Opens the journal. -/
def journal : Action (List Digest) := do
  let folder ← stage
  demand folder.chunks .missing

/-- Changes the partial file. -/
def setData (file : Option File) (s : Node) : Node :=
  { s with staging := s.staging.map fun folder => { folder with data := file } }

/-- Changes the journal. -/
def setChunks (chunks : Option (List Digest)) (s : Node) : Node :=
  { s with staging := s.staging.map fun folder => { folder with chunks } }

/-- There is room for a file with the reserved margin. -/
def requireRoom (kernel : Kernel) (record : Record) (required : ℕ) : Action Unit :=
  refuseIf (kernel.available < required - kernel.blocks * 512 + record.freeBytes)
    (.error "disk_capacity" "The destination lacks reserved free space.")

/-- Creates the partial file, or finds it empty. -/
def prepareData (kernel : Kernel) (record : Record) : Action Unit := do
  let folder ← stage
  match folder.data with
  | none => perform (setData (some ⟨kernel.inode, true, [], kernel.stamp⟩))
  | some file =>
    refuseIf (file.content ≠ [])
      (.error "invalid_partial" "The unprepared partial file changed.")
  requireRoom kernel record record.size

/-- Creates the journal, or finds it empty. -/
def prepareChunks (kernel : Kernel) (record : Record) : Action Unit := do
  let folder ← stage
  match folder.chunks with
  | none => perform (setChunks (some []))
  | some chunks =>
    refuseIf (chunks ≠ [])
      (.error "invalid_partial" "The unprepared partial file changed.")
  requireRoom kernel record (journalBytes record.size)

/-- Prepares the staging directory of a new transfer. -/
def prepare (kernel : Kernel) (record : Record) : Action Record :=
  if record.prepared = true ∨ record.state.Terminal ∨ record.state = .discarding then pure record
  else do
    perform fun s => { s with staging := s.staging.or (some ⟨none, none⟩) }
    prepareData kernel record
    prepareChunks kernel record
    let record := { record with
      state := .running, prepared := true
      reservedBytes := record.size + journalBytes record.size }
    save record
    pure record

/-- Deletes the staging directory with the partial file. -/
def removePartial : Action Unit := do
  let s ← disk
  if s.staging = none then pure ()
  else do
    perform (setData none)
    perform (setChunks none)
    perform fun s => { s with staging := none }

/-- Discards a transfer that was not committed. -/
def discard (record : Record) : Action Record := do
  save { record with state := .discarding }
  removePartial
  let record := { record with state := .cancelled }
  save record
  pure record

/-- Starts a transfer, or finds the one that was started. -/
def start [Hash (Root × Spec)] (kernel : Kernel) (root : Root) (spec : Spec) (preparing : Bool)
    (limits : Limits) : Action Record := do
  refuseIf (MAX_FILE < spec.size)
    (.error "file_limit" "The file size is outside the filesystem offset range.")
  let signature := Hash.digest (root, spec)
  let s ← disk
  match s.record with
  | some previous => do
    refuseIf (previous.digest ≠ signature)
      (.error "idempotency_conflict" "The transfer identity is already in use.")
    if preparing then prepare kernel previous else pure previous
  | none => do
    let displaced := (spec.expected.map FileIdentity.size).getD 0
    refuseIf (64 ≤ limits.count ∨ limits.retainedBytes.any fun quota =>
        decide (quota < limits.reserved + spec.size + displaced))
      (.error "capacity" "The retained partial-file quota is full.")
    refuseIf (root.readOnly = true) (.error "read_only" "This root is read-only.")
    refuseIf (kernel.available < spec.size + journalBytes spec.size + limits.freeBytes)
      (.error "disk_capacity" "The destination lacks reserved free space.")
    let destination := s.destination.map File.identity
    refuseIf (destination ≠ spec.expected ∨ destination.any fun found => !found.regular)
      (.error "destination_changed" "The destination changed. Create a new preview.")
    refuseIf (4096 ≤ limits.records)
      (.error "capacity" "The retained file operation limit was reached.")
    let record : Record :=
      { digest := signature, rootId := root.id, downloads := root.downloads
        cleanupPending := false, prepared := false, expected := destination, size := spec.size
        offset := 0, sha256 := none, prefixSha256 := none, sourceManifest := spec.sourceManifest
        freeBytes := limits.freeBytes, state := .preparing, committedIdentity := none
        publishedIdentity := none, reservedBytes := 0 }
    save record
    if preparing then prepare kernel record else pure record

variable [Hashing]

/-- Accepts a chunk. A chunk that was accepted before must be the same. -/
def writeChunk (kernel : Kernel) (record : Record) (offset : ℕ) (data : Bytes)
    (digest : Option Digest) : Action Record := do
  refuseIf (offset % CHUNK ≠ 0 ∨ record.offset < offset)
    (.error "invalid_offset" "The chunk offset is invalid.")
  refuseIf (data.length ≠ min CHUNK (record.size - offset) ∨ data = [])
    (.error "invalid_chunk" "The chunk length is invalid.")
  let hashed := sha256 data
  refuseIf (digest ≠ some hashed)
    (.error "digest_mismatch" "The chunk digest does not match.")
  refuseIf (record.state ≠ .running)
    (.error "transfer_state" "This transfer does not accept chunks.")
  let file ← dataFile
  let chunks ← journal
  if offset < record.offset then do
    refuseIf (pread file.content data.length offset ≠ data ∨ chunks[offset / CHUNK]? ≠ some hashed)
      (.error "source_changed" "The selected source does not match the accepted prefix.")
    pure record
  else do
    -- A record without reserved space comes from an older helper, or the file is empty.
    let content := if record.reservedBytes = 0 then file.content.take offset else file.content
    let chunks := if record.reservedBytes = 0 then chunks.take (offset / CHUNK) else chunks
    let write (bytes : Bytes) := setData (some { file with
      content := pwrite 0 content bytes offset, stamp := kernel.stamp })
    let enter (entry : Digest) := setChunks (some (pwrite 0 chunks [entry] (offset / CHUNK)))
    perform (write (kernel.torn.take data.length))
    perform (write data)
    perform (enter kernel.tornDigest)
    perform (enter hashed)
    let record := { record with offset := record.offset + data.length }
    perform fun s => { s with record := some record, accepted := s.accepted ++ data }
    pure record

/-- Reads the chunks at the given offsets and compares them with the journal. The result is what
was read, with the chain of the digests. -/
def verifyChunks (content : Bytes) (chunks : List Digest) (expected : ℕ) (chained : Digest) :
    List ℕ → Except FileError (Bytes × Digest)
  | [] => .ok ([], chained)
  | offset :: rest => do
    let length := min CHUNK (expected - offset)
    let data := pread content length offset
    let digest := sha256 data
    raiseIf (data.length ≠ length ∨ chunks[offset / CHUNK]? ≠ some digest)
      (.error "partial_changed" "The retained partial file failed verification.")
    let (bytes, chained) ← verifyChunks content chunks expected (chainNext chained digest) rest
    .ok (data ++ bytes, chained)

/-- The offsets of the chunks of a prefix. -/
def chunkOffsets (expected : ℕ) : List ℕ := (List.range (journalEntries expected)).map (· * CHUNK)

/-- The digest of the accepted prefix, which agrees with the journal and, when it is complete, with
the digest of the source. -/
def readPrefix (record : Record) (content : Bytes) (chunks : List Digest) :
    Except FileError Digest := do
  let expected := record.offset
  let (bytes, chained) ← verifyChunks content chunks expected (chainSeed record.size)
    (chunkOffsets expected)
  let hashed := sha256 bytes
  raiseIf (expected = record.size ∧ record.sourceManifest.any fun source =>
      decide (source.digest ≠ if source.algorithm = .sha256 then hashed else chained))
    (.error "source_changed" "The received file differs from the original source digest.")
  .ok hashed

/-- Checks the accepted prefix, and shortens the files to it at the end. -/
def verifyPrefix (kernel : Kernel) (record : Record) : Action Digest := do
  let file ← dataFile
  let chunks ← journal
  let expected := record.offset
  let hashed ← check (readPrefix record file.content chunks)
  if record.reservedBytes = 0 ∨ expected = record.size then do
    perform (setData (some { file with
      content := file.content.take expected, stamp := kernel.stamp }))
    perform (setChunks (some (chunks.take (journalEntries expected))))
    pure hashed
  else pure hashed

/-- Puts the partial file in the place of the destination. With `exchange` the destination goes to
the staging directory, and without it there must not be one. -/
def rename (kernel : Kernel) (exchange : Bool) : Action Unit := do
  let s ← disk
  let file ← dataFile
  let published := { file with stamp := kernel.stamp }
  match exchange, s.destination with
  | true, some old => perform fun s =>
    { setData (some { old with stamp := kernel.stamp }) s with destination := some published }
  | true, none => check (.error .missing)
  | false, none => perform fun s => { setData none s with destination := some published }
  | false, some _ => check (.error (.error "exists" "File exists."))

/-- The destination is still the one that was previewed. -/
def requireDestination (record : Record) : Action Unit := do
  let s ← disk
  match record.expected with
  | some expected => do
    let current ← demand s.destination .missing
    refuseIf (same current.identity expected false = false)
      (.error "stale_entry" "The selected entry changed. Refresh the directory.")
  | none =>
    refuseIf (s.destination.isSome)
      (.error "destination_changed" "A file now occupies the destination.")

/-- The first half of a commit: checks the partial file and publishes it. -/
def publish (kernel : Kernel) (digest : Option Digest) (record : Record) : Action Record := do
  let hashed ← verifyPrefix kernel record
  refuseIf (digest ≠ some hashed)
    (.error "digest_mismatch" "Source and destination digests do not match.")
  let file ← dataFile
  requireDestination record
  let record := { record with
    committedIdentity := some file.identity, state := .committing, sha256 := some hashed }
  save record
  rename kernel record.expected.isSome
  pure record

/-- Deletes the displaced file. -/
def removeDisplaced (record : Record) (folder : Stage) : Action Unit :=
  match folder.data with
  | none => pure ()
  | some old => do
    refuseIf (!record.expected.any fun expected => same old.identity expected true)
      (.error "outcome_unknown" "A displaced object was retained for recovery.")
    perform (setData none)

/-- Deletes the staging directory of a transfer that succeeded. -/
def removeStage (record : Record) : Action Unit := do
  let s ← disk
  match s.staging with
  | none => pure ()
  | some folder => do
    removeDisplaced record folder
    perform (setChunks none)
    perform fun s => { s with staging := none }

/-- Deletes what a transfer that succeeded has left in its staging directory. -/
def cleanup (record : Record) : Action Record :=
  if record.cleanupPending = false then pure record
  else do
    removeStage record
    let record := { record with cleanupPending := false }
    save record
    pure record

/-- The displaced file is the one that was previewed. -/
def requireDisplaced (record : Record) : Action Unit :=
  match record.expected with
  | none => pure ()
  | some expected => do
    let old ← dataFile
    refuseIf (same old.identity expected true = false)
      (.error "outcome_unknown" "A displaced object was retained for recovery.")

/-- The second half of a commit: checks the destination in place. -/
def confirm (record : Record) : Action Record := do
  let s ← disk
  let published ← demand s.destination .missing
  refuseIf (!record.committedIdentity.any (fun committed => same published.identity committed true) ∨
      record.sha256 ≠ some (sha256 published.content))
    (.error "outcome_unknown" "The committed destination requires manual recovery.")
  requireDisplaced record
  let record := { record with
    publishedIdentity := some published.identity, state := .succeeded, cleanupPending := true }
  save record
  pure record

/-- Publishes a complete file. A commit that was interrupted goes on. -/
def commit (kernel : Kernel) (record : Record) (digest : Option Digest) : Action Record :=
  if record.state = .succeeded then pure record
  else do
    refuseIf (record.offset ≠ record.size ∨ ¬(record.state = .running ∨ record.state = .committing))
      (.error "incomplete_transfer" "Receive and verify every chunk before commit.")
    let _ ← stage
    let record ← if record.state = .running then publish kernel digest record else pure record
    let record ← confirm record
    recovering (cleanup record) record

/-- Checks the accepted prefix and accepts chunks again. -/
def resume (kernel : Kernel) (record : Record) : Action Record := do
  let record ← prepare kernel record
  refuseIf (¬(record.state = .running ∨ record.state = .interrupted))
    (.error "transfer_state" "The transfer cannot be resumed.")
  let hashed ← verifyPrefix kernel record
  let record := { record with prefixSha256 := some hashed, state := .running }
  save record
  pure record

/-- Deletes a download that was published. -/
def deleteDownload (record : Record) : Action Record := do
  let s ← disk
  let current ← demand s.destination .missing
  refuseIf (!record.committedIdentity.any fun committed => same current.identity committed true)
    (.error "source_changed" "The prepared download changed.")
  perform fun s => { s with destination := none }
  let record := { record with state := .cancelled }
  save record
  pure record

/-- Interrupts a transfer or discards what it has. -/
def cancel (record : Record) (discardPartial : Bool) : Action Record := do
  refuseIf (record.state = .committing)
    (.error "outcome_unknown" "Reconcile the commit before cleanup.")
  if record.state = .succeeded then do
    let record ← cleanup record
    if discardPartial ∧ record.downloads then deleteDownload record else pure record
  else if record.state = .cancelled then pure record
  else if discardPartial then discard record
  else if record.state = .discarding then pure record
  else do
    let record := { record with state := .interrupted }
    save record
    pure record

/-- Performs a request. The reply is read off the record that is returned. -/
def dispatch [Hash (Root × Spec)] (kernel : Kernel) (root : Root) (request : Request) :
    Action Record := do
  match request with
  | .start spec preparing limits => start kernel root spec preparing limits
  | request => do
    let s ← disk
    let error := FileError.error "transfer_missing" "The transfer receipt is unavailable."
    let record ← demand s.record error
    refuseIf (record.rootId ≠ root.id) error
    match request with
    | .write offset data digest => writeChunk kernel record offset data digest
    | .resume => resume kernel record
    | .commit digest => commit kernel record digest
    | .cancel discardPartial => cancel record discardPartial
    | .verify => do
      let hashed ← verifyPrefix kernel record
      pure { record with prefixSha256 := some hashed }
    | _ => pure record

end Node

end Ficc.Transfers
