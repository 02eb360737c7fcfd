import Ficc.Transfers.Phases
import Ficc.Foundations.Transition

/-!
# Integrity of file transfers

Every request to the node as a step that may be stopped anywhere, and what holds after every
sequence of such steps (`transfer_integrity`), as long as no published download is deleted.
-/

namespace Ficc.Transfers.Node

open Execution (Identity Digest Hash)
open Durable

section Runs

/-- A request to the node, with what the kernel gives, and the number of durable steps after which
it is stopped by a crash or a failure. -/
structure Step where
  kernel : Kernel
  root : Root
  request : Request
  stop : Option ℕ

variable [Hashing] [Hash (Root × Spec)]

/-- What the node does with a request. -/
def step (s : Node) (action : Step) : Node :=
  if Fresh s action.kernel then
    cut (dispatch action.kernel action.root action.request) s action.stop
  else s

/-- The destination before the transfer, and nothing else. -/
def initial (old : Option File) : Node :=
  { destination := old, staging := none, record := none, accepted := [] }

/-- The request does not delete a download that was published. -/
def Retains (s : Node) (action : Step) : Prop :=
  action.request = .cancel true → ∀ record, s.record = some record →
    ¬(record.state = .succeeded ∧ record.downloads = true)

variable {old : Option File} {requested : Digest → Prop} {stuck : Prop} {s : Node}

omit [Hash (Root × Spec)] in
theorem Sound.mono {more : Digest → Prop} (h : Sound old requested stuck s)
    (hmore : ∀ d, requested d → more d) : Sound old more stuck s := by
  cases h with
  | absent hrecord hdestination hstaging haccepted =>
    exact .absent hrecord hdestination hstaging haccepted
  | kept record h =>
    have hcommitted {file : File} (h : Committed old requested s.accepted record file) :
        Committed old more s.accepted record file :=
      ⟨h.content, h.complete, h.prepared, h.digest, hmore _ h.requested, h.committed, h.apart⟩
    refine .kept record ⟨h.record_eq, h.expected, h.length, h.staged, ?_⟩
    cases h.phase with
    | unprepared hstate hprepared hdestination hempty haccepted =>
      exact .unprepared hstate hprepared hdestination hempty haccepted
    | receiving hstate hprepared hdestination file hfile hstart hapart =>
      exact .receiving hstate hprepared hdestination file hfile hstart hapart
    | recorded hstuck hstate hdestination file hfile h =>
      exact .recorded hstuck hstate hdestination file hfile (hcommitted h)
    | renamed hstate file hdestination h hdisplaced hmoved =>
      exact .renamed hstate file hdestination (hcommitted h) hdisplaced hmoved
    | succeeded hstate file hdestination h hmoved =>
      exact .succeeded hstate file hdestination (hcommitted h) hmoved
    | discarded hstate hdestination => exact .discarded hstate hdestination

/-- What an action that returned a record leaves behind. -/
def Replied (old : Option File) (requested : Digest → Prop) (stuck : Prop) (record : Record)
    (s : Node) : Prop :=
  Sound old requested stuck s ∧ ∃ stored, s.record = some stored ∧ stored.state = record.state

omit [Hash (Root × Spec)] in
theorem Returned.replied {record : Record} (h : Returned old requested stuck record s) :
    Replied old requested stuck record s :=
  ⟨h.1, record, h.2, rfl⟩

/-- Every action leads only through sound states, and the state that it replies is the one that is
stored. -/
theorem wp_dispatch (h : Sound old requested stuck s) {action : Step} (hfresh : Fresh s action.kernel)
    (hretains : Retains s action)
    (hrequested : ∀ d, action.request = .commit (some d) → requested d)
    (hstuck : ∀ record d, action.request = .commit (some d) → s.record = some record →
      record.state = .running → record.offset = record.size → Verified s record d → stuck) :
    wp (dispatch action.kernel action.root action.request) (Replied old requested stuck)
      (fun _ => Sound old requested stuck) (Sound old requested stuck) s := by
  obtain ⟨kernel, root, request, stop⟩ := action
  have hreply {p : Action Record} (hp : wp p (Returned old requested stuck)
      (fun _ => Sound old requested stuck) (Sound old requested stuck) s) :
      wp p (Replied old requested stuck) (fun _ => Sound old requested stuck) (Sound old requested stuck) s :=
    wp_mono hp (fun _ _ h => h.replied) (fun _ _ h => h) fun _ h => h
  -- All other requests are about the record that is there.
  have hload {p : Record → Action Record}
      (hp : ∀ record, Kept old requested stuck s record → wp (p record) (Replied old requested stuck)
        (fun _ => Sound old requested stuck) (Sound old requested stuck) s) :
      wp (do
        let s ← disk
        let record ← demand s.record
          (.error "transfer_missing" "The transfer receipt is unavailable.")
        refuseIf (record.rootId ≠ root.id)
          (.error "transfer_missing" "The transfer receipt is unavailable.")
        p record) (Replied old requested stuck) (fun _ => Sound old requested stuck) (Sound old requested stuck)
        s := by
    simp only [wp_bind, wp_disk, wp_demand, wp_refuseIf]
    refine ⟨fun _ => h, fun record hrecord => ⟨fun _ => h, fun _ => hp record ?_⟩⟩
    exact Returned.kept ⟨h, hrecord⟩
  cases request with
  | start spec preparing limits => exact hreply (h.wp_start hfresh root spec preparing limits)
  | write offset bytes digest =>
    exact hload fun record hkept => hreply (hkept.wp_writeChunk offset bytes digest)
  | resume => exact hload fun record hkept => hreply (hkept.wp_resume hfresh)
  | commit digest =>
    refine hload fun record hkept => hkept.wp_commit (fun d hd => hrequested d ?_)
      fun hrunning hcomplete d hd => hstuck record d ?_ hkept.record_eq hrunning hcomplete
    · rw [hd]
    · rw [hd]
  | cancel discardPartial =>
    refine hload fun record hkept => hreply (hkept.wp_cancel fun hdelete => ?_)
    exact hretains (congrArg Request.cancel hdelete.1) record hkept.record_eq hdelete.2
  | status => exact hload fun record hkept => wp_pure.mpr hkept.returned.replied
  | verify =>
    refine hload fun record hkept => wp_seq hkept.wp_verifyPrefix ?_
    rintro hashed t ⟨ht, -⟩
    rw [wp_pure]
    exact ⟨.kept record ht, record, ht.record_eq, rfl⟩

theorem Sound.step (h : Sound old requested stuck s) {action : Step} (hretains : Retains s action)
    (hrequested : ∀ d, action.request = .commit (some d) → requested d)
    (hstuck : ∀ record d, action.request = .commit (some d) → s.record = some record →
      record.state = .running → record.offset = record.size → Verified s record d → stuck) :
    Sound old requested stuck (step s action) := by
  unfold Node.step
  split_ifs with hfresh
  · exact cut_of_wp (wp_dispatch h hfresh hretains hrequested hstuck) h action.stop
  · exact h

/-- A commit with the digest was requested. -/
def Requested (actions : List Step) (digest : Digest) : Prop :=
  ∃ action ∈ actions, action.request = .commit (some digest)

/-- Every run of actions, each stopped anywhere, leads to a sound state. -/
theorem sound_run {actions : List Step} (hrun : Along step Retains (initial old) actions) :
    Sound old (Requested actions) True (run step (initial old) actions) := by
  refine Along.run_history (I := fun past s => Sound old (Requested past) True s) ?_
    (.absent rfl rfl rfl rfl) hrun
  intro past s action h hretains
  have hmore : Sound old (Requested (past ++ [action])) True s :=
    h.mono fun d ⟨a, ha, hd⟩ => ⟨a, List.mem_append_left _ ha, hd⟩
  refine hmore.step hretains (fun d hd => ?_) fun _ _ _ _ _ _ _ => trivial
  exact ⟨action, List.mem_append_right _ (List.mem_singleton_self _), hd⟩

omit [Hash (Root × Spec)] in
theorem Sound.kept_of_record {record : Record} (h : Sound old requested stuck s)
    (hrecord : s.record = some record) : Kept old requested stuck s record :=
  Returned.kept ⟨h, hrecord⟩

omit [Hash (Root × Spec)] in
/-- A transfer that succeeded has its accepted bytes at the destination. -/
theorem Sound.content_of_succeeded {record : Record} (h : Sound old requested stuck s)
    (hrecord : s.record = some record) (hstate : record.state = .succeeded) :
    ∃ file, s.destination = some file ∧ file.content = s.accepted ∧
      s.accepted.length = record.size ∧ requested (Hashing.sha256 file.content) := by
  have hkept := h.kept_of_record hrecord
  obtain ⟨file, hpublished⟩ := hkept.published hstate
  have hcommitted := hpublished.committed
  refine ⟨file, hpublished.destination, hcommitted.content, ?_, ?_⟩
  · rw [hkept.length, hcommitted.complete]
  · rw [hcommitted.content]
    exact hcommitted.requested

omit [Hash (Root × Spec)] in
/-- The destination is the old file or the complete new one. -/
theorem Sound.destination_eq (h : Sound old requested stuck s) :
    s.destination = old ∨ ∃ file record, s.destination = some file ∧ s.record = some record ∧
      file.content = s.accepted ∧ s.accepted.length = record.size := by
  cases h with
  | absent _ hdestination => exact .inl hdestination
  | kept record h =>
    have hnew {file : File} (hdestination : s.destination = some file)
        (hcommitted : Committed old requested s.accepted record file) :
        ∃ file record, s.destination = some file ∧ s.record = some record ∧
          file.content = s.accepted ∧ s.accepted.length = record.size :=
      ⟨file, record, hdestination, h.record_eq, hcommitted.content,
        h.length.trans hcommitted.complete⟩
    cases h.phase with
    | unprepared _ _ hdestination => exact .inl hdestination
    | receiving _ _ hdestination => exact .inl hdestination
    | recorded _ _ hdestination => exact .inl hdestination
    | renamed _ file hdestination hcommitted => exact .inr (hnew hdestination hcommitted)
    | succeeded _ file hdestination hcommitted => exact .inr (hnew hdestination hcommitted)
    | discarded _ hdestination => exact .inl hdestination

omit [Hash (Root × Spec)] in
/-- The old file is at the destination or in the staging directory until the transfer succeeded. -/
theorem Sound.old_kept (h : Sound old requested stuck s) {f : File} (hold : old = some f) :
    s.destination = some f ∨ (∃ moved, s.data = some moved ∧ moved.ino = f.ino ∧
        (moved.content = f.content ∨ moved.content = f.content.take s.accepted.length)) ∨
      ∃ record, s.record = some record ∧ record.state = .succeeded := by
  cases h with
  | absent _ hdestination => exact .inl (hdestination.trans hold)
  | kept record h =>
    cases h.phase with
    | unprepared _ _ hdestination => exact .inl (hdestination.trans hold)
    | receiving _ _ hdestination => exact .inl (hdestination.trans hold)
    | recorded _ _ hdestination => exact .inl (hdestination.trans hold)
    | renamed _ file _ _ hdisplaced hmoved =>
      obtain ⟨moved, hdata⟩ := Option.isSome_iff_exists.mp (hdisplaced (by rw [hold]; rfl))
      obtain ⟨f', hold', hino, -, hcontent⟩ := hmoved moved hdata
      obtain rfl : f = f' := Option.some.inj (hold.symm.trans hold')
      exact .inr (.inl ⟨moved, hdata, hino, hcontent⟩)
    | succeeded hstate => exact .inr (.inr ⟨record, h.record_eq, hstate⟩)
    | discarded _ hdestination => exact .inl (hdestination.trans hold)

/-- After every sequence of actions, each stopped anywhere, of which none deletes a published
download: a transfer that is recorded as succeeded, or that replies so, has exactly the accepted
bytes at the destination, and their digest was requested. The destination is the old file or the
complete new one. The old file is still there unless the transfer succeeded, in the staging directory
perhaps only as much of it as the new one is long. -/
theorem transfer_integrity (old : Option File) (actions : List Step)
    (hrun : Along step Retains (initial old) actions) :
    let s := run step (initial old) actions
    (∀ record, s.record = some record → record.state = .succeeded →
      ∃ file, s.destination = some file ∧ file.content = s.accepted ∧
        s.accepted.length = record.size ∧ Requested actions (Hashing.sha256 file.content)) ∧
    (∀ action, Fresh s action.kernel → Retains s action → ∀ reply,
      (dispatch action.kernel action.root action.request s).result = .ok reply →
      reply.state = .succeeded → ∃ record,
        (cut (dispatch action.kernel action.root action.request) s none).record = some record ∧
          record.state = .succeeded) ∧
    (s.destination = old ∨ ∃ file record, s.destination = some file ∧ s.record = some record ∧
      file.content = s.accepted ∧ s.accepted.length = record.size) ∧
    (∀ f, old = some f → s.destination = some f ∨
      (∃ moved, s.data = some moved ∧ moved.ino = f.ino ∧
        (moved.content = f.content ∨ moved.content = f.content.take s.accepted.length)) ∨
        ∃ record, s.record = some record ∧ record.state = .succeeded) := by
  have hsound := sound_run hrun
  refine ⟨fun record => hsound.content_of_succeeded, ?_, hsound.destination_eq,
    fun f => hsound.old_kept⟩
  intro action hfresh hretains reply hreply hstate
  have hmore : Sound old (Requested (actions ++ [action])) True (run step (initial old) actions) :=
    hsound.mono fun d ⟨a, ha, hd⟩ => ⟨a, List.mem_append_left _ ha, hd⟩
  have hdispatch := wp_dispatch hmore hfresh hretains
    (fun d hd => ⟨action, List.mem_append_right _ (List.mem_singleton_self _), hd⟩)
    fun _ _ _ _ _ _ _ => trivial
  obtain ⟨-, stored, hstored, hsame⟩ := result_of_wp hdispatch hreply
  exact ⟨stored, hstored, hsame.trans hstate⟩

end Runs

namespace Example

/-- A digest that tells the files of the examples apart. -/
@[reducible]
def hashing : Hashing :=
  { sha256 := fun bytes => BitVec.ofNat 256 (bytes.foldl (fun n byte => n * 256 + byte.toNat) 1)
    chainSeed := fun size => BitVec.ofNat 256 size
    chainNext := fun first second => first + second }

@[reducible]
def signatures : Hash (Root × Spec) := ⟨fun _ => 0⟩

attribute [local instance] hashing signatures

/-- The file that a transfer replaces. -/
def previous : File := { ino := 1, regular := true, content := [5], stamp := 1 }

def kernel : Kernel :=
  { inode := 2, stamp := 3, torn := [], tornDigest := 0, available := 2 ^ 40, blocks := 0 }

def limits : Limits :=
  { retainedBytes := none, freeBytes := 0, count := 0, reserved := 0, records := 0 }

/-- A step that is not stopped. -/
def whole (root : Root) (kernel : Kernel) (request : Request) : Step :=
  { kernel, root, request, stop := none }

/-- A file of one byte replaces another one. -/
def replacement (root : Root) : List Step :=
  [whole root kernel (.start ⟨1, some previous.identity, none, "name"⟩ true limits),
    whole root { kernel with inode := 3 } (.write 0 [7] (some (Hashing.sha256 [7]))),
    whole root { kernel with inode := 3 } (.commit (some (Hashing.sha256 [7])))]

/-- The controller's spool of downloads. -/
def spool : Root := { id := 1, readOnly := false, downloads := true }

/-- The deletion of the download. -/
def deletion (stop : Option ℕ) : Step :=
  { kernel := { kernel with inode := 3 }, root := spool, request := .cancel true, stop }

/-- A published download that is deleted leaves neither the old nor the new file. When the deletion
is stopped halfway, the transfer is still recorded as succeeded. -/
theorem not_transfer_integrity_deletion :
    (let s := run step (initial (some previous)) (replacement spool ++ [deletion none])
     s.destination ≠ some previous ∧ s.destination.map File.content ≠ some s.accepted) ∧
    (let s := run step (initial (some previous)) (replacement spool ++ [deletion (some 1)])
     s.record.map Record.state = some .succeeded ∧ s.destination = none) := by
  decide +kernel

/-- A directory that is not the spool. -/
def directory : Root := { id := 1, readOnly := false, downloads := false }

theorem transfer_integrity_replacement :
    let s := run step (initial (some previous)) (replacement directory)
    ∃ file, s.destination = some file ∧ file.content = s.accepted := by
  intro s
  have hretains : Along step Retains (initial (some previous)) (replacement directory) :=
    ⟨nofun, nofun, nofun, trivial⟩
  have hstate : s.record.map Record.state = some .succeeded := by decide +kernel
  obtain ⟨record, hrecord, hsucceeded⟩ := Option.map_eq_some_iff.mp hstate
  obtain ⟨file, hdestination, hcontent, -⟩ :=
    (transfer_integrity (some previous) (replacement directory) hretains).1 record hrecord hsucceeded
  exact ⟨file, hdestination, hcontent⟩

end Example

end Ficc.Transfers.Node
