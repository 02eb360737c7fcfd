import Ficc.Execution.Spec
import Ficc.Foundations.Durable
import Ficc.Foundations.Volume

/-!
# The model cache

A cache has two names for each digest: the unfinished object, which writes extend, and the blob,
which it becomes when its digest is right. The files of manifests name digests together with a
length, and files of different manifests can name one digest with different lengths.

The writers and evictions hold the lock of the cache, and `status` is also read without it, so it
looks at the volume at three times. A write is a program with durable steps, of which any can be
the last one before the process stops.
-/

namespace Ficc.Models

open Execution Durable

abbrev Bytes := List UInt8

/-- A file of a manifest. -/
structure File where
  name : String
  digest : Digest
  bytes : ℕ
  /-- The field is declared with `ge=1`. -/
  bytes_pos : 1 ≤ bytes

/-- The suffix of a name in the cache. -/
inductive Suffix
  | unfinished | blob
deriving DecidableEq

/-- A name in the cache. -/
abbrev Path := Digest × Suffix

/-- The volume of a cache. -/
abbrev Disk := Volume Path

/-- The path of a file. -/
def path (item : File) (suffix : Suffix) : Path := (item.digest, suffix)

def WRITE_CHUNK : ℕ := 16 * 1024 * 1024

/-- The space that a write leaves free. -/
def RESERVE : ℕ := 64 * 1024 * 1024

/-- What `status` reports. -/
structure Status where
  offset : ℕ
  complete : Bool
  bytes : ℕ
deriving DecidableEq

/-- What `status` makes of a file that it finds. -/
def report (item : File) (suffix : Suffix) (contents : Contents) : Except Error Status := do
  let size := contents.bytes.length
  raiseIf (item.bytes < size)
    (.failure "model_storage_changed" "A cached model object has an invalid identity." 409)
  raiseIf (suffix = .blob ∧ size ≠ item.bytes)
    (.failure "model_size" "The cached model size differs from its manifest." 409)
  .ok ⟨size, suffix = .blob, item.bytes⟩

/-- Looks for the blob, for the unfinished object, and for the blob again. The three disks are
those at the times of the three looks. -/
def status (item : File) (first second third : Disk) : Except Error Status :=
  match first.file (path item .blob) with
  | some contents => report item .blob contents
  | none =>
    match second.file (path item .unfinished) with
    | some contents => report item .unfinished contents
    | none =>
      match third.file (path item .blob) with
      | some contents => report item .blob contents
      | none => .ok ⟨0, false, item.bytes⟩

/-- How the calls of one write to the operating system end. -/
structure Calls where
  /-- The free space of the volume. -/
  free : ℕ
  opens : Bool
  /-- What the calls that write return: the number of bytes, or nothing for an error. The calls
  after these write all that is left. -/
  written : List (Option ℕ)
  syncs : Bool
  /-- The object can be read for its digest. -/
  reads : Bool
  discards : Bool
  modes : Bool
  replaces : Bool
  syncsFolder : Bool

variable [Hash Bytes]

/-- Writes the data at the end of the unfinished object, as much at a time as a call takes. -/
def writeAll (item : File) : List (Option ℕ) → Bytes → Durable Disk Error Unit
  | [], data =>
    if data = [] then pure () else perform fun disk => disk.append (path item .unfinished) data
  | none :: _, data => refuseIf (data ≠ []) .os
  | some count :: written, data =>
    if data = [] then pure ()
    else do
      refuseIf (count = 0) .os
      perform fun disk => disk.append (path item .unfinished) (data.take count)
      writeAll item written (data.drop count)

/-- Makes the unfinished object the blob when its digest is the one in its name, and discards it
otherwise. -/
def publish (item : File) (calls : Calls) : Durable Disk Error Unit := do
  let disk ← Durable.disk
  let found ← demand (disk.file (path item .unfinished)) .os
  refuseIf (calls.reads = false) .os
  if Hash.digest found.bytes ≠ item.digest then
    refuseIf (calls.discards = false) .os
    perform fun disk => disk.unlink (path item .unfinished)
    check (.error (.failure "model_digest"
      "The complete model digest did not match; the partial object was discarded." 409))
  else
    refuseIf (calls.modes = false) .os
    refuseIf (calls.replaces = false) .os
    perform fun disk => disk.rename (path item .unfinished) (path item .blob)
    refuseIf (calls.syncsFolder = false) .os
    perform fun disk => disk.syncFolder

/-- Opens the unfinished object, writes the data and syncs it. -/
def extend (item : File) (offset : ℕ) (data : Bytes) (calls : Calls) :
    Durable Disk Error Unit := do
  refuseIf (calls.opens = false) .os
  perform fun disk => disk.create (path item .unfinished)
  let disk ← Durable.disk
  let found ← demand (disk.file (path item .unfinished)) .os
  refuseIf (found.bytes.length ≠ offset)
    (.failure "model_storage_changed" "The partial model changed during upload." 409)
  writeAll item calls.written data
  refuseIf (calls.syncs = false) .os
  perform fun disk => disk.sync (path item .unfinished)

/-- Writes data at an offset of a file, or verifies the retained bytes when there is no data. -/
def write (item : File) (offset : ℕ) (data : Bytes) (calls : Calls) :
    Durable Disk Error Status := do
  refuseIf ((data = [] ∧ offset ≠ item.bytes) ∨ WRITE_CHUNK < data.length ∨
      item.bytes < offset + data.length)
    (.failure "model_range" ("Write at most 16 MiB within the file; an empty final chunk " ++
      "verifies its retained bytes.") 422)
  let disk ← Durable.disk
  let found ← check (status item disk disk disk)
  if found.complete then pure found
  else do
    refuseIf (found.offset ≠ offset)
      (.failure "model_offset" "Resume at the current durable model offset." 409)
    if data = [] then publish item calls
    else do
      refuseIf (calls.free < item.bytes - offset + RESERVE)
        (.failure "model_capacity" "The model volume lacks space for this file and its reserve." 409)
      extend item offset data calls
      if offset + data.length = item.bytes then publish item calls else pure ()
    let disk ← Durable.disk
    check (status item disk disk disk)

/-- Takes both objects of a file away. `unlinks` says whether the calls succeed. -/
def evict (item : File) (unlinks : Bool × Bool) : Durable Disk Error Unit := do
  refuseIf (unlinks.1 = false) .os
  perform fun disk => disk.unlink (path item .blob)
  refuseIf (unlinks.2 = false) .os
  perform fun disk => disk.unlink (path item .unfinished)

end Ficc.Models
