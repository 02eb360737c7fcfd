import Ficc.Sources.Uploads

/-!
# Finished uploads and uncertain ones

Two invariants carry the results. `Recorded` is about what outlives the controller: the provider
was asked to create an upload at most once, and never got a part or a completion while the record
of the upload said `unknown`. `Tasked` is about the tasks in memory: a task holds its two records as
they are in the database, and no other task works on its upload. A finished upload can only be
inspected, but what such an inspection returns, or a restart during it, is written into the record.
-/

namespace Ficc.Sources

open Execution (Identity Digest Hash)
open Durable

/-- The operation only inspects. -/
def Operation.Inspects (operation : Operation) : Prop := operation = .status ∨ operation = .reconcile

/-- The operation writes to an upload that has been created. -/
def Operation.Writes (operation : Operation) : Prop := operation = .part ∨ operation = .complete

namespace Store

/-- The requests to create an upload. -/
def creations (s : Store) (id : Identity) : List Sent :=
  s.sent.filter fun request => request.uploadId = id ∧ request.operation = .begin

/-- What holds of the records and of the requests. -/
structure Recorded (s : Store) : Prop where
  uploads : s.uploads.KeyedBy fun row => row.value.id
  runs : s.runs.KeyedBy fun row => row.value.id
  fresh : ∀ id, s.uploads.lookup id = none → s.creations id = []
  once : ∀ id, (s.creations id).length ≤ 1
  quiet : ∀ request ∈ s.sent, request.operation.Writes → request.recorded ≠ some .unknown

/-- What holds of one task. -/
structure Task.Held (s : Store) (run : Identity) (task : Task) : Prop where
  id : task.value.id = run
  uploadId : task.value.uploadId = task.upload.id
  operation : task.value.operation = task.body.operation
  run : (s.runs.lookup run).map Row.value = some task.value
  upload : (s.uploads.lookup task.upload.id).map Row.value = some task.upload
  known : task.body.operation.Writes → task.upload.state ≠ .unknown
  finished : task.upload.state.Finished → task.body.operation.Inspects
  queued : task.phase = .created → task.value.state = .queued
  unsent : task.phase ≠ .sent → task.body.operation = .begin → s.creations task.upload.id = []

/-- What holds of the tasks. -/
structure Tasked (s : Store) : Prop where
  held : ∀ {run task}, s.tasks.lookup run = some task → Task.Held s run task
  one : ∀ {run run' task task'}, s.tasks.lookup run = some task →
    s.tasks.lookup run' = some task' → task.upload.id = task'.upload.id → run = run'

structure Consistent (s : Store) : Prop extends Recorded s, Tasked s

theorem Tasked.of_empty {s : Store} (h : s.tasks = ∅) : Tasked s := by
  constructor
  · intro run task htask
    rw [h] at htask
    cases htask
  · intro run run' task task' htask
    rw [h] at htask
    cases htask

/-- What is recorded survives the process. -/
theorem Recorded.down {s : Store} (h : Recorded s) : Consistent s.down where
  toRecorded := ⟨h.uploads, h.runs, h.fresh, h.once, h.quiet⟩
  toTasked := .of_empty rfl

section Writes

variable {s : Store}

/-- The uploads after one was saved. -/
theorem lookup_saveUpload (upload : Upload) (id : Identity) :
    (s.saveUpload upload).uploads.lookup id =
      if id = upload.id then (s.uploads.lookup upload.id).map fun row => { row with value := upload }
      else s.uploads.lookup id :=
  Table.lookup_modify _ _ _ _

/-- The runs after one was saved. -/
theorem lookup_saveRun (value : Run) (id : Identity) :
    (s.saveRun value).runs.lookup id =
      if id = value.id then (s.runs.lookup value.id).map fun row => { row with value := value }
      else s.runs.lookup id :=
  Table.lookup_modify _ _ _ _

theorem Recorded.saveUpload (h : Recorded s) (upload : Upload) : Recorded (s.saveUpload upload) := by
  refine ⟨⟨fun {id row} hrow => ?_⟩, h.runs, fun id hnone => ?_, h.once, h.quiet⟩
  · rw [lookup_saveUpload] at hrow
    split_ifs at hrow with hid
    · obtain ⟨old, -, rfl⟩ := Option.map_eq_some_iff.mp hrow
      exact hid.symm
    · exact h.uploads.key_eq hrow
  · rw [lookup_saveUpload] at hnone
    split_ifs at hnone with hid
    · exact h.fresh id (hid ▸ Option.map_eq_none_iff.mp hnone)
    · exact h.fresh id hnone

theorem Recorded.saveRun (h : Recorded s) (value : Run) : Recorded (s.saveRun value) := by
  refine ⟨h.uploads, ⟨fun {id row} hrow => ?_⟩, h.fresh, h.once, h.quiet⟩
  rw [lookup_saveRun] at hrow
  split_ifs at hrow with hid
  · obtain ⟨old, -, rfl⟩ := Option.map_eq_some_iff.mp hrow
    exact hid.symm
  · exact h.runs.key_eq hrow

/-- A task that ends touches only its own run and its own upload. -/
theorem Tasked.ended {t : Store} (h : Tasked s) {run : Identity} {task : Task}
    (htask : s.tasks.lookup run = some task) (htasks : t.tasks = s.tasks.erase run)
    (hruns : ∀ k ≠ run, t.runs.lookup k = s.runs.lookup k)
    (huploads : ∀ id ≠ task.upload.id, t.uploads.lookup id = s.uploads.lookup id)
    (hsent : t.sent = s.sent) : Tasked t := by
  have hold : ∀ {k found}, t.tasks.lookup k = some found → k ≠ run ∧ s.tasks.lookup k = some found := by
    intro k found hfound
    rw [htasks] at hfound
    have herased := (Table.lookup_erase_eq s.tasks run k).symm.trans hfound
    split_ifs at herased with hk
    exact ⟨hk, herased⟩
  constructor
  · intro k found hfound
    obtain ⟨hk, hlookup⟩ := hold hfound
    have hother : found.upload.id ≠ task.upload.id := fun hsame => hk (h.one hlookup htask hsame)
    obtain ⟨hid, huploadId, hoperation, hrun, hrow, hknown, hfinished, hqueued, hunsent⟩ :=
      h.held hlookup
    refine ⟨hid, huploadId, hoperation, ?_, ?_, hknown, hfinished, hqueued, ?_⟩
    · rw [hruns k hk]
      exact hrun
    · rw [huploads _ hother]
      exact hrow
    · rw [creations, hsent]
      exact hunsent
  · intro k k' found found' hfound hfound'
    exact h.one (hold hfound).2 (hold hfound').2

/-- A task that concludes leaves both rows closed. -/
theorem Consistent.concluded (h : Consistent s) {run : Identity} {task : Task}
    (htask : s.tasks.lookup run = some task) {value : Run} {upload : Upload}
    (hvalue : value.id = run) (hupload : upload.id = task.upload.id) :
    Consistent { (s.saveRun value).saveUpload upload with tasks := s.tasks.erase value.id } := by
  have hrecorded := (h.toRecorded.saveRun value).saveUpload upload
  refine ⟨⟨hrecorded.uploads, hrecorded.runs, hrecorded.fresh, hrecorded.once, hrecorded.quiet⟩, ?_⟩
  refine h.toTasked.ended htask (by rw [hvalue]) (fun k hk => ?_) (fun id hid => ?_) rfl
  · show (s.saveRun value).runs.lookup k = _
    rw [lookup_saveRun, if_neg (hvalue ▸ hk)]
  · show ((s.saveRun value).saveUpload upload).uploads.lookup id = _
    rw [lookup_saveUpload, if_neg (hupload ▸ hid)]
    rfl

/-- A task that goes on touches only its own run. -/
theorem Tasked.continued {t : Store} (h : Tasked s) {run : Identity} {task : Task}
    (htask : s.tasks.lookup run = some task) (task' : Task) (hupload : task'.upload.id = task.upload.id)
    (htasks : t.tasks = s.tasks.insert run task') (huploads : t.uploads = s.uploads)
    (hruns : ∀ k ≠ run, t.runs.lookup k = s.runs.lookup k)
    (hcreations : ∀ id ≠ task.upload.id, t.creations id = s.creations id)
    (hheld : Task.Held t run task') : Tasked t := by
  have hlookup : ∀ k, t.tasks.lookup k = if k = run then some task' else s.tasks.lookup k := by
    intro k
    rw [htasks]
    exact Table.lookup_insert_eq _ _ _ _
  -- Every task of the new state works on the upload of the old one under the same key.
  have hold : ∀ {k found}, t.tasks.lookup k = some found →
      ∃ old, s.tasks.lookup k = some old ∧ found.upload.id = old.upload.id := by
    intro k found hfound
    rw [hlookup] at hfound
    split_ifs at hfound with hk
    · cases hfound
      exact ⟨task, hk ▸ htask, hupload⟩
    · exact ⟨found, hfound, rfl⟩
  constructor
  · intro k found hfound
    rw [hlookup] at hfound
    split_ifs at hfound with hk
    · cases hfound
      exact hk ▸ hheld
    · obtain ⟨hid, huploadId, hoperation, hrun, hrow, hknown, hfinished, hqueued, hunsent⟩ :=
        h.held hfound
      have hother : found.upload.id ≠ task.upload.id := fun hsame => hk (h.one hfound htask hsame)
      refine ⟨hid, huploadId, hoperation, ?_, ?_, hknown, hfinished, hqueued, ?_⟩
      · rw [hruns k hk]
        exact hrun
      · rw [huploads]
        exact hrow
      · rw [hcreations _ hother]
        exact hunsent
  · intro k k' found found' hfound hfound' hsame
    obtain ⟨old, hlook, hsame'⟩ := hold hfound
    obtain ⟨old', hlook', hsame''⟩ := hold hfound'
    exact h.one hlook hlook' (hsame'.symm.trans (hsame.trans hsame''))

/-- The run of a task after it has been saved. -/
theorem lookup_saveRun_self {run : Identity} {task : Task} (h : Task.Held s run task) {value : Run}
    (hvalue : value.id = run) :
    ((s.saveRun value).runs.lookup run).map Row.value = some value := by
  obtain ⟨row, hrow, -⟩ := Option.map_eq_some_iff.mp h.run
  rw [lookup_saveRun, if_pos hvalue.symm, hvalue, hrow]
  rfl

end Writes

section Actions

variable {s : Store}

/-- A task with its phase. -/
theorem taskIn_eq_ok {run : Identity} {phases : List Phase} {task : Task} :
    s.taskIn run phases = .ok task ↔ s.tasks.lookup run = some task ∧ task.phase ∈ phases := by
  simp [taskIn, Option.filter_eq_some_iff]

theorem wp_start (h : Consistent s) (run : Identity) :
    wp (start run) (fun _ => Consistent) (fun _ => Consistent) Recorded s := by
  simp only [start, wp_bind, wp_disk, wp_check, wp_perform]
  refine ⟨fun task htask => ?_, fun _ _ => h⟩
  obtain ⟨htask, hphase⟩ := taskIn_eq_ok.mp htask
  have hheld := h.held htask
  have hnext : Consistent (remember { task with phase := .started } s) := by
    refine ⟨⟨h.uploads, h.runs, h.fresh, h.once, h.quiet⟩, ?_⟩
    refine h.toTasked.continued htask { task with phase := .started } rfl ?_ rfl
      (fun _ _ => rfl) (fun _ _ => rfl) ?_
    · show s.tasks.insert task.value.id _ = _
      rw [hheld.id]
    · refine ⟨hheld.id, hheld.uploadId, hheld.operation, hheld.run, hheld.upload, hheld.known,
        hheld.finished, (by rintro ⟨⟩), fun _ => hheld.unsent ?_⟩
      rw [List.mem_singleton] at hphase
      rw [hphase]
      rintro ⟨⟩
  exact ⟨hnext.toRecorded, hnext⟩

theorem wp_committing (h : Consistent s) (run : Identity) :
    wp (committing run) (fun _ => Consistent) (fun _ => Consistent) Recorded s := by
  simp only [committing, wp_bind, wp_disk, wp_check, wp_perform]
  refine ⟨fun task htask => ?_, fun _ _ => h⟩
  obtain ⟨htask, hphase⟩ := taskIn_eq_ok.mp htask
  have hheld := h.held htask
  rw [List.mem_singleton] at hphase
  have hsaved := h.toRecorded.saveRun { task.value with state := .committing }
  have hnext : Consistent (remember { task with value := { task.value with state := .committing } }
      (s.saveRun { task.value with state := .committing })) := by
    refine ⟨⟨hsaved.uploads, hsaved.runs, hsaved.fresh, hsaved.once, hsaved.quiet⟩, ?_⟩
    refine h.toTasked.continued htask { task with value := { task.value with
      state := .committing } } rfl ?_ rfl (fun k hk => ?_) (fun _ _ => rfl) ?_
    · show s.tasks.insert task.value.id _ = _
      rw [hheld.id]
    · show (s.saveRun _).runs.lookup k = _
      rw [lookup_saveRun, if_neg]
      exact hheld.id ▸ hk
    · refine ⟨hheld.id, hheld.uploadId, hheld.operation, lookup_saveRun_self hheld hheld.id,
        hheld.upload, hheld.known, hheld.finished, ?_, fun hother => ?_⟩
      · rw [hphase]
        rintro ⟨⟩
      · exact absurd hphase hother
  exact ⟨hsaved, hnext.toRecorded, hnext⟩

theorem wp_conclude (h : Consistent s) {run : Identity} {task : Task}
    (htask : s.tasks.lookup run = some task) {value : Run} {upload : Upload}
    (hvalue : value.id = run) (hupload : upload.id = task.upload.id) :
    wp (conclude value upload) (fun _ => Consistent) (fun _ => Consistent) Recorded s := by
  have hnext := h.concluded htask hvalue hupload
  simp only [conclude, wp_bind, wp_perform]
  exact ⟨h.toRecorded.saveRun value, (h.toRecorded.saveRun value).saveUpload upload,
    hnext.toRecorded, hnext⟩

/-- A receipt does not rename the upload. -/
theorem received_id (upload : Upload) (receipt : Receipt) :
    (received upload receipt).id = upload.id := by
  cases receipt <;> rfl

theorem interrupted_id (upload : Upload) (operation : Operation) (unknown : Bool) :
    (interrupted upload operation unknown).id = upload.id := by
  unfold interrupted
  split_ifs <;> rfl

theorem wp_finish (h : Consistent s) (run : Identity) (receipt : Receipt) :
    wp (finish run receipt) (fun _ => Consistent) (fun _ => Consistent) Recorded s := by
  simp only [finish, wp_bind, wp_disk, wp_check]
  refine ⟨fun task htask => ?_, fun _ _ => h⟩
  obtain ⟨htask, -⟩ := taskIn_eq_ok.mp htask
  exact wp_conclude h htask (h.held htask).id (received_id task.upload receipt)

theorem wp_fail (h : Consistent s) (run : Identity) (cancelled : Bool) (error : String × String) :
    wp (fail run cancelled error) (fun _ => Consistent) (fun _ => Consistent) Recorded s := by
  simp only [fail, wp_bind, wp_disk, wp_check]
  refine ⟨fun task htask => ?_, fun _ _ => h⟩
  obtain ⟨htask, -⟩ := taskIn_eq_ok.mp htask
  exact wp_conclude h htask (h.held htask).id (interrupted_id task.upload _ _)

/-- The creations that were sent, after one more. -/
theorem creations_append (request : Sent) (id : Identity) :
    ({ s with sent := s.sent ++ [request] }).creations id = s.creations id ++
      if request.uploadId = id ∧ request.operation = .begin then [request] else [] := by
  simp only [creations, List.filter_append]
  congr 1
  by_cases h : request.uploadId = id ∧ request.operation = .begin <;> simp [h]

theorem wp_send (h : Consistent s) (run : Identity) :
    wp (send run) (fun _ => Consistent) (fun _ => Consistent) Recorded s := by
  simp only [send, wp_bind, wp_disk, wp_check, wp_perform]
  refine ⟨fun task htask => ?_, fun _ _ => h⟩
  obtain ⟨htask, hphase⟩ := taskIn_eq_ok.mp htask
  rw [List.mem_singleton] at hphase
  have hheld := h.held htask
  let value : Run := { task.value with state := .running }
  have hsaved := h.toRecorded.saveRun value
  obtain ⟨row, hrow, hupload⟩ := Option.map_eq_some_iff.mp hheld.upload
  have hrecorded : ((s.saveRun value).uploads.lookup task.upload.id).map
      (fun row => row.value.state) = some task.upload.state := by
    show (s.uploads.lookup task.upload.id).map _ = _
    rw [hrow, Option.map_some, hupload]
  rw [hrecorded]
  let request : Sent := ⟨task.upload.id, task.body.operation, some task.upload.state⟩
  have hcreations (id : Identity) (t : Store) (ht : t.sent = s.sent ++ [request]) :
      t.creations id = s.creations id ++
        if request.uploadId = id ∧ request.operation = .begin then [request] else [] := by
    rw [creations, ht]
    exact creations_append request id
  have hnext : Consistent { remember { task with value := value, phase := .sent }
      (s.saveRun value) with sent := s.sent ++ [request] } := by
    refine ⟨⟨hsaved.uploads, hsaved.runs, fun id hnone => ?_, fun id => ?_, ?_⟩, ?_⟩
    · rw [hcreations id _ rfl, h.fresh id hnone, if_neg, List.nil_append]
      rintro ⟨rfl, -⟩
      have habsent : s.uploads.lookup task.upload.id = none := hnone
      rw [hrow] at habsent
      cases habsent
    · rw [hcreations id _ rfl]
      split_ifs with hbegin
      · obtain ⟨rfl, hoperation⟩ := hbegin
        have hnone : s.creations task.upload.id = [] :=
          hheld.unsent (by rw [hphase]; rintro ⟨⟩) hoperation
        show (s.creations task.upload.id ++ [request]).length ≤ 1
        rw [hnone]
        exact le_rfl
      · rw [List.append_nil]
        exact h.once id
    · intro found hfound hwrites
      rcases List.mem_append.mp hfound with hfound | hfound
      · exact h.quiet found hfound hwrites
      · cases List.mem_singleton.mp hfound
        exact fun hunknown => hheld.known hwrites (Option.some.inj hunknown)
    · refine h.toTasked.continued htask { task with value := value, phase := .sent } rfl ?_ rfl
        (fun k hk => ?_) (fun id hid => ?_) ?_
      · show s.tasks.insert task.value.id _ = _
        rw [hheld.id]
      · show (s.saveRun value).runs.lookup k = _
        rw [lookup_saveRun, if_neg]
        exact hheld.id ▸ hk
      · rw [hcreations id _ rfl, if_neg, List.append_nil]
        exact fun hsame => hid hsame.1.symm
      · exact ⟨hheld.id, hheld.uploadId, hheld.operation, lookup_saveRun_self hheld hheld.id,
          hheld.upload, hheld.known, hheld.finished, (by rintro ⟨⟩), fun hother => absurd rfl hother⟩
  exact ⟨hsaved, hnext.toRecorded, hnext⟩

/-- What is known of an operation when its run is admitted. -/
structure Admissible (s : Store) (upload : Upload) (body : Body) : Prop where
  recorded : (s.uploads.lookup upload.id).map Row.value = some upload
  known : body.operation.Writes → upload.state ≠ .unknown
  finished : upload.state.Finished → body.operation.Inspects
  unsent : body.operation = .begin → s.creations upload.id = []

variable [Hash (Identity × Body)] [Hash (Identity × CreateUpload)]

omit [Hash (Identity × Body)] [Hash (Identity × CreateUpload)] in
/-- A row is added under a new name. -/
theorem insertRow_eq_ok {α : Type} {table table' : Table Identity (Row α)} {id : Identity}
    {row : Row α} (h : insertRow table id row = .ok table') :
    table.lookup id = none ∧ table' = table.insert id row := by
  simp only [insertRow, bind_eq_ok, raiseIf_eq_ok] at h
  obtain ⟨-, habsent, -, -, h⟩ := h
  cases h
  exact ⟨Option.not_isSome_iff_eq_none.mp habsent, rfl⟩

omit [Hash (Identity × CreateUpload)] in
theorem wp_admitNew (h : Consistent s) {upload : Upload} {body : Body}
    (hbody : Admissible s upload body) (key : String) (request : Request) :
    wp (admitNew upload body key request) (fun _ => Consistent) (fun _ => Consistent) Recorded
      s := by
  simp only [admitNew, wp_bind, wp_disk, wp_refuseIf, wp_check, wp_perform]
  refine ⟨fun _ => h, fun hfree => ⟨fun runs hruns => ?_, fun _ _ => h⟩⟩
  obtain ⟨habsent, rfl⟩ := insertRow_eq_ok hruns
  let value := newRun request upload body
  let upload' : Upload := { upload with lastRunId := some value.id }
  let row : Row Run := ⟨request.owner, key, Hash.digest (upload.id, body), value⟩
  have hinserted : Recorded { s with runs := s.runs.insert value.id row } :=
    ⟨h.uploads, h.runs.insert rfl, h.fresh, h.once, h.quiet⟩
  have hsaved := hinserted.saveUpload upload'
  -- No task works on the upload, and every task has a run of its own.
  have hother : ∀ {run task}, s.tasks.lookup run = some task →
      run ≠ value.id ∧ task.upload.id ≠ upload.id := by
    intro run task htask
    have hheld := h.held htask
    constructor
    · rintro rfl
      have hrun := hheld.run
      rw [habsent] at hrun
      cases hrun
    · intro hsame
      refine hfree (.inr (List.any_eq_true.mpr ⟨task, Table.mem_values.mpr ⟨run, htask⟩, ?_⟩))
      exact decide_eq_true (hheld.uploadId.trans hsame)
  have hlookup : ∀ k, (s.tasks.insert value.id ⟨value, upload', body, .created⟩).lookup k =
      if k = value.id then some ⟨value, upload', body, .created⟩ else s.tasks.lookup k :=
    fun k => Table.lookup_insert_eq _ _ _ _
  have hnew : Task.Held { saveUpload upload' { s with runs := s.runs.insert value.id row } with
      tasks := s.tasks.insert value.id ⟨value, upload', body, .created⟩ } value.id
      ⟨value, upload', body, .created⟩ := by
    refine ⟨rfl, rfl, rfl, ?_, ?_, hbody.known, hbody.finished, fun _ => rfl,
      fun _ => hbody.unsent⟩
    · show ((s.runs.insert value.id row).lookup value.id).map Row.value = some value
      rw [AList.lookup_insert]
      rfl
    · show ((s.saveUpload upload').uploads.lookup upload'.id).map Row.value = some upload'
      obtain ⟨found, hfound, -⟩ := Option.map_eq_some_iff.mp hbody.recorded
      rw [lookup_saveUpload, if_pos rfl]
      show ((s.uploads.lookup upload.id).map _).map Row.value = _
      rw [hfound]
      rfl
  have hnext : Consistent { saveUpload upload' { s with runs := s.runs.insert value.id row } with
      tasks := s.tasks.insert value.id ⟨value, upload', body, .created⟩ } := by
    refine ⟨⟨hsaved.uploads, hsaved.runs, hsaved.fresh, hsaved.once, hsaved.quiet⟩, ?_, ?_⟩
    · intro run task htask
      have hcase := (hlookup run).symm.trans htask
      split_ifs at hcase with hrun
      · cases hcase
        exact hrun ▸ hnew
      · obtain ⟨hid, huploadId, hoperation, hfound, hrow, hknown, hfinished, hqueued, hunsent⟩ :=
          h.held hcase
        refine ⟨hid, huploadId, hoperation, ?_, ?_, hknown, hfinished, hqueued, hunsent⟩
        · show ((s.runs.insert value.id row).lookup run).map Row.value = _
          rw [AList.lookup_insert_ne hrun]
          exact hfound
        · show ((s.saveUpload upload').uploads.lookup task.upload.id).map Row.value = _
          rw [lookup_saveUpload, if_neg (hother hcase).2]
          exact hrow
    · intro run run' task task' htask htask' hsame
      have hcase := (hlookup run).symm.trans htask
      have hcase' := (hlookup run').symm.trans htask'
      split_ifs at hcase hcase' with hrun hrun' hrun'
      · rw [hrun, hrun']
      · cases hcase
        exact absurd hsame.symm (hother hcase').2
      · cases hcase'
        exact absurd hsame (hother hcase).2
      · exact h.one hcase hcase' hsame
  exact ⟨hinserted, hsaved, hnext.toRecorded, hnext⟩

omit [Hash (Identity × CreateUpload)] in
theorem wp_startOperation (h : Consistent s) {upload : Upload} {body : Body}
    (hbody : Admissible s upload body) (key : String) (request : Request) :
    wp (startOperation upload body key request) (fun _ => Consistent) (fun _ => Consistent)
      Recorded s := by
  simp only [startOperation, wp_bind, wp_disk, wp_check, wp_ite, wp_pure]
  refine ⟨fun _ _ => ⟨fun previous _ => ⟨fun _ => h, fun _ => ?_⟩, fun _ _ => h⟩, fun _ _ => h⟩
  exact wp_admitNew h hbody key request

omit [Hash (Identity × CreateUpload)] in
theorem wp_operate (h : Consistent s) (identity : Identity) (body : Body) (request : Request) :
    wp (operate identity body request) (fun _ => Consistent) (fun _ => Consistent) Recorded s := by
  simp only [operate, wp_bind, wp_disk, wp_check]
  refine ⟨fun upload hupload => ⟨fun _ hallowed => ?_, fun _ _ => h⟩, fun _ _ => h⟩
  simp only [get, map_eq_ok, orRaise_eq_ok] at hupload
  obtain ⟨row, hrow, rfl⟩ := hupload
  simp only [admissible, bind_eq_ok, raiseIf_eq_ok] at hallowed
  obtain ⟨-, hbegin, -, -, -, hfinished, -, -, hunknown⟩ := hallowed
  have hkey := h.uploads.key_eq hrow
  refine wp_startOperation h ⟨?_, ?_, ?_, fun heq => absurd heq hbegin⟩ _ request
  · rw [hkey, hrow]
    rfl
  · intro hwrites hstate
    refine hunknown ⟨hstate, ?_⟩
    rcases hwrites with heq | heq <;> rw [heq] <;> decide
  · intro hstate
    by_contra hother
    refine hfinished ⟨hstate, fun hmem => hother ?_⟩
    simpa [Operation.Inspects] using hmem

theorem wp_beginUpload (h : Consistent s) (id connectionId : Identity) (body : CreateUpload)
    (request : Request) :
    wp (beginUpload id connectionId body request) (fun _ => Consistent) (fun _ => Consistent)
      Recorded s := by
  simp only [beginUpload, beginNew, wp_bind, wp_disk, wp_check, wp_ite, wp_pure, wp_refuseIf,
    wp_perform]
  refine ⟨fun _ _ => ⟨fun previous _ => ⟨fun _ => h, fun _ => ⟨fun _ => h, fun _ =>
    ⟨fun uploads huploads => ?_, fun _ _ => h⟩⟩⟩, fun _ _ => h⟩, fun _ _ => h⟩
  obtain ⟨habsent, rfl⟩ := insertRow_eq_ok huploads
  let upload := creating id request.owner connectionId body
  let row : Row Upload := ⟨request.owner, request.key, Hash.digest (connectionId, body), upload⟩
  have hlookup : ∀ k, (s.uploads.insert id row).lookup k =
      if k = id then some row else s.uploads.lookup k := fun k => Table.lookup_insert_eq _ _ _ _
  have hnext : Consistent { s with uploads := s.uploads.insert id row } := by
    refine ⟨⟨h.uploads.insert rfl, h.runs, fun k hnone => ?_, h.once, h.quiet⟩, ?_, h.one⟩
    · have hcase := (hlookup k).symm.trans hnone
      split_ifs at hcase
      exact h.fresh k hcase
    · intro run task htask
      obtain ⟨hid, huploadId, hoperation, hrun, hrow, hknown, hfinished, hqueued, hunsent⟩ :=
        h.held htask
      refine ⟨hid, huploadId, hoperation, hrun, ?_, hknown, hfinished, hqueued, hunsent⟩
      show ((s.uploads.insert id row).lookup task.upload.id).map Row.value = _
      rw [hlookup, if_neg]
      · exact hrow
      · intro hsame
        rw [hsame, habsent] at hrow
        cases hrow
  have hbegin : Admissible { s with uploads := s.uploads.insert id row } upload
      ⟨.begin, none, 0⟩ := by
    refine ⟨?_, ?_, ?_, fun _ => h.fresh id habsent⟩
    · show ((s.uploads.insert id row).lookup id).map Row.value = some upload
      rw [AList.lookup_insert]
      rfl
    · rintro (hother | hother) <;> cases hother
    · rintro (hother | hother) <;> cases hother
  exact ⟨hnext.toRecorded, wp_startOperation hnext hbegin _ request⟩

omit [Hash (Identity × Body)] [Hash (Identity × CreateUpload)] in
theorem wp_cancelCreated (h : Consistent s) (run : Identity) :
    wp (cancelCreated run) (fun _ => Consistent) (fun _ => Consistent) Recorded s := by
  simp only [cancelCreated, wp_bind, wp_disk, wp_check, wp_demand, wp_ite, wp_perform, wp_pure]
  refine ⟨fun task htask => ⟨fun _ => h, fun row hrow => ⟨fun _ => ?_, fun _ => h⟩⟩, fun _ _ => h⟩
  obtain ⟨htask, -⟩ := taskIn_eq_ok.mp htask
  have hkey := h.runs.key_eq hrow
  have hheld := h.held htask
  have hvalue : row.value = task.value := by
    have hrun := hheld.run
    rw [hrow] at hrun
    exact Option.some.inj hrun
  let value : Run := { row.value with state := .cancelled }
  have hsaved := h.toRecorded.saveRun value
  have hruns : ∀ k ≠ run, (s.saveRun value).runs.lookup k = s.runs.lookup k := by
    intro k hk
    rw [lookup_saveRun, if_neg]
    exact hkey.symm ▸ hk
  refine ⟨hsaved, fun _ => ⟨fun upload hupload => ?_, fun _ _ => ?_⟩, fun _ => ?_⟩
  · -- The upload of a creation that never started is given up.
    simp only [get, map_eq_ok, orRaise_eq_ok] at hupload
    obtain ⟨found, hfound, rfl⟩ := hupload
    have hid : found.value.id = task.upload.id := by
      rw [h.uploads.key_eq hfound, hvalue, hheld.uploadId]
    let upload : Upload := { found.value with state := .aborted }
    have hsaved' := hsaved.saveUpload upload
    have hnext : Consistent { saveUpload upload (s.saveRun value) with
        tasks := s.tasks.erase run } := by
      refine ⟨⟨hsaved'.uploads, hsaved'.runs, hsaved'.fresh, hsaved'.once, hsaved'.quiet⟩, ?_⟩
      refine h.toTasked.ended htask rfl hruns (fun id hne => ?_) rfl
      show (saveUpload upload (s.saveRun value)).uploads.lookup id = _
      rw [lookup_saveUpload, if_neg]
      · rfl
      · exact fun hsame => hne (hsame.trans hid)
    exact ⟨hsaved', hnext.toRecorded, hnext⟩
  · obtain ⟨found, hfound, -⟩ := Option.map_eq_some_iff.mp hheld.upload
    rename_i hraised
    simp only [get, map_eq_error, orRaise_eq_error] at hraised
    rw [hvalue, hheld.uploadId, hfound] at hraised
    cases hraised.1
  · have hnext : Consistent { s.saveRun value with tasks := s.tasks.erase run } := by
      refine ⟨⟨hsaved.uploads, hsaved.runs, hsaved.fresh, hsaved.once, hsaved.quiet⟩, ?_⟩
      exact h.toTasked.ended htask rfl hruns (fun _ _ => rfl) rfl
    exact ⟨hnext.toRecorded, hnext⟩

end Actions

/-! ### Finished uploads -/

section Finished

variable {s t : Store}

/-- Every finished upload of `s` has the same state in `t`. -/
def Kept (s t : Store) : Prop :=
  ∀ id row, s.uploads.lookup id = some row → row.value.state.Finished →
    ∃ row', t.uploads.lookup id = some row' ∧ row'.value.state = row.value.state

theorem Kept.refl (s : Store) : Kept s s := fun _ row hrow _ => ⟨row, hrow, rfl⟩

theorem Kept.trans {u : Store} (h : Kept s t) (h' : Kept t u) : Kept s u := by
  intro id row hrow hfinished
  obtain ⟨row', hrow', hsame⟩ := h id row hrow hfinished
  obtain ⟨row'', hrow'', hsame'⟩ := h' id row' hrow' (hsame ▸ hfinished)
  exact ⟨row'', hrow'', hsame'.trans hsame⟩

theorem Kept.saveUpload (h : Kept s t) {upload : Upload}
    (hsame : ∀ row, s.uploads.lookup upload.id = some row → row.value.state.Finished →
      upload.state = row.value.state) : Kept s (t.saveUpload upload) := by
  intro id row hrow hfinished
  obtain ⟨row', hrow', hstate⟩ := h id row hrow hfinished
  by_cases hid : id = upload.id
  · subst hid
    refine ⟨{ row' with value := upload }, ?_, hsame row hrow hfinished⟩
    rw [lookup_saveUpload, if_pos rfl, hrow', Option.map_some]
  · exact ⟨row', by rw [lookup_saveUpload, if_neg hid, hrow'], hstate⟩

/-- The state that a receipt puts into the record. -/
def Receipt.state : Receipt → UploadState
  | .created _ _ _ => .uploading
  | .completed => .completed
  | .aborted => .aborted
  | .unknown => .unknown
  | .uploading => .uploading
  | .partUploaded _ => .uploading

/-- The state of an upload is the one of its receipt. -/
theorem received_state (upload : Upload) (receipt : Receipt) :
    (received upload receipt).state = Receipt.state receipt := by
  cases receipt <;> rfl

/-- What an event must meet to leave every finished upload as it is: a receipt for one has the
outcome that is recorded, and no operation on one is under way at a restart. -/
def Lasting (s : Store) (step : Step) : Prop :=
  match step.event with
  | .finish run receipt => ∀ task row, s.tasks.lookup run = some task →
    s.uploads.lookup task.upload.id = some row → row.value.state.Finished →
    Receipt.state receipt = row.value.state
  | .restart => ∀ run row upload, s.runs.lookup run = some row → Run.open row.value = true →
    s.uploads.lookup row.value.uploadId = some upload → ¬upload.value.state.Finished
  | _ => True

/-- Recovery keeps what is finished. -/
theorem kept_recover (h : Consistent s) (hlasting : ∀ run row upload,
    s.runs.lookup run = some row → Run.open row.value = true →
    s.uploads.lookup row.value.uploadId = some upload → ¬upload.value.state.Finished) :
    Kept s s.restart := by
  intro id row hrow hfinished
  refine ⟨row, ?_, rfl⟩
  refine (Table.lookup_mapRows _ _ id).trans ?_
  rw [hrow, Option.map_some, if_neg]
  intro hany
  obtain ⟨found, hfound, hopen⟩ := List.any_eq_true.mp hany
  obtain ⟨run, hrun⟩ := Table.mem_values.mp hfound
  obtain ⟨hopen, hsame⟩ := of_decide_eq_true hopen
  refine hlasting run found row hrun hopen ?_ hfinished
  rw [hsame, h.uploads.key_eq hrow]
  exact hrow

/-- So does the end of a run. -/
theorem wp_conclude_kept {value : Run} {upload : Upload}
    (hsame : ∀ row, s.uploads.lookup upload.id = some row → row.value.state.Finished →
      upload.state = row.value.state) :
    wp (conclude value upload) (fun _ => Kept s) (fun _ => Kept s) (Kept s) s := by
  have hnext : Kept s (saveUpload upload (s.saveRun value)) :=
    Kept.saveUpload (t := s.saveRun value) (Kept.refl s) hsame
  simp only [conclude, wp_bind, wp_perform]
  exact ⟨Kept.refl s, hnext, hnext, hnext⟩

variable [Hash (Identity × Body)] [Hash (Identity × CreateUpload)]

omit [Hash (Identity × CreateUpload)] in
/-- So does a new operation. -/
theorem wp_startOperation_kept {u : Store} (hs : Kept u s) {upload : Upload} {body : Body}
    (hsame : ∀ row, u.uploads.lookup upload.id = some row → row.value.state.Finished →
      upload.state = row.value.state) (key : String) (request : Request) :
    wp (startOperation upload body key request) (fun _ => Kept u) (fun _ => Kept u) (Kept u)
      s := by
  simp only [startOperation, admitNew, wp_bind, wp_disk, wp_check, wp_ite, wp_pure, wp_refuseIf,
    wp_perform]
  refine ⟨fun _ _ => ⟨fun previous _ => ⟨fun _ => hs, fun _ => ⟨fun _ => hs, fun _ =>
    ⟨fun runs _ => ?_, fun _ _ => hs⟩⟩⟩, fun _ _ => hs⟩, fun _ _ => hs⟩
  have hnext : Kept u (saveUpload { upload with lastRunId := some (newRun request upload body).id }
      { s with runs := runs }) := Kept.saveUpload (t := { s with runs := runs }) hs hsame
  exact ⟨hs, hnext, hnext, hnext⟩

/-- Every event that meets the condition leaves the finished uploads as they are, wherever the
controller stops. -/
theorem wp_act_kept (h : Consistent s) (step : Step) (hlasting : Lasting s step) :
    wp (act step.event) (fun _ => Kept s) (fun _ => Kept s) (Kept s) s := by
  unfold Lasting at hlasting
  cases hevent : step.event with
  | beginUpload id connectionId body request =>
    simp only [act, beginUpload, beginNew, wp_bind, wp_disk, wp_check, wp_ite, wp_pure,
      wp_refuseIf, wp_perform]
    refine ⟨fun _ _ => ⟨fun previous _ => ⟨fun _ => .refl s, fun _ => ⟨fun _ => .refl s, fun _ =>
      ⟨fun uploads huploads => ?_, fun _ _ => .refl s⟩⟩⟩, fun _ _ => .refl s⟩, fun _ _ => .refl s⟩
    obtain ⟨habsent, rfl⟩ := insertRow_eq_ok huploads
    let inserted : Row Upload := ⟨request.owner, request.key, Hash.digest (connectionId, body),
      creating id request.owner connectionId body⟩
    have hinserted : Kept s { s with uploads := s.uploads.insert id inserted } := by
      intro k row hrow _
      refine ⟨row, ?_, rfl⟩
      refine (Table.lookup_insert_eq _ _ _ _).trans ?_
      rw [if_neg, hrow]
      rintro rfl
      rw [habsent] at hrow
      cases hrow
    refine ⟨hinserted, wp_startOperation_kept hinserted (fun row hrow => ?_) _ request⟩
    have hnone : s.uploads.lookup id = some row := hrow
    rw [habsent] at hnone
    cases hnone
  | operate identity body request =>
    simp only [act, operate, wp_bind, wp_disk, wp_check]
    refine ⟨fun upload hupload => ⟨fun _ _ => ?_, fun _ _ => .refl s⟩, fun _ _ => .refl s⟩
    simp only [get, map_eq_ok, orRaise_eq_ok] at hupload
    obtain ⟨found, hfound, rfl⟩ := hupload
    refine wp_startOperation_kept (.refl s) (fun row hrow _ => ?_) _ request
    rw [h.uploads.key_eq hfound, hfound] at hrow
    cases hrow
    rfl
  | start run =>
    simp only [act, start, wp_bind, wp_disk, wp_check, wp_perform]
    exact ⟨fun _ _ => ⟨Kept.refl s, Kept.refl s⟩, fun _ _ => .refl s⟩
  | send run =>
    simp only [act, send, wp_bind, wp_disk, wp_check, wp_perform]
    exact ⟨fun _ _ => ⟨Kept.refl s, Kept.refl s, Kept.refl s⟩, fun _ _ => .refl s⟩
  | committing run =>
    simp only [act, committing, wp_bind, wp_disk, wp_check, wp_perform]
    exact ⟨fun _ _ => ⟨Kept.refl s, Kept.refl s, Kept.refl s⟩, fun _ _ => .refl s⟩
  | finish run receipt =>
    rw [hevent] at hlasting
    simp only [act, finish, wp_bind, wp_disk, wp_check]
    refine ⟨fun task htask => ?_, fun _ _ => .refl s⟩
    obtain ⟨htask, -⟩ := taskIn_eq_ok.mp htask
    refine wp_conclude_kept fun row hrow hfinished => ?_
    rw [received_id] at hrow
    rw [received_state]
    exact hlasting task row htask hrow hfinished
  | fail run cancelled error =>
    simp only [act, fail, wp_bind, wp_disk, wp_check]
    refine ⟨fun task htask => ?_, fun _ _ => .refl s⟩
    obtain ⟨htask, -⟩ := taskIn_eq_ok.mp htask
    have hheld := h.held htask
    refine wp_conclude_kept fun row hrow hfinished => ?_
    rw [interrupted_id] at hrow
    have hupload := hheld.upload
    rw [hrow, Option.map_some, Option.some.injEq] at hupload
    -- An operation on a finished upload only inspects it, and an error of such an operation
    -- leaves the upload alone.
    have hinspects := hheld.finished (hupload ▸ hfinished)
    rw [hupload]
    rcases hinspects with heq | heq <;> simp [interrupted, heq]
  | cancelCreated run =>
    simp only [act, cancelCreated, wp_bind, wp_disk, wp_check, wp_demand, wp_ite, wp_perform,
      wp_pure]
    refine ⟨fun task htask => ⟨fun _ => .refl s, fun row hrow => ⟨fun _ => ?_, fun _ => .refl s⟩⟩,
      fun _ _ => .refl s⟩
    refine ⟨Kept.refl s, fun hbegin => ⟨fun upload hupload => ?_, fun _ _ => Kept.refl s⟩,
      fun _ => ⟨Kept.refl s, Kept.refl s⟩⟩
    obtain ⟨htask, -⟩ := taskIn_eq_ok.mp htask
    have hheld := h.held htask
    have hvalue : row.value = task.value := by
      have hrun := hheld.run
      rw [hrow] at hrun
      exact Option.some.inj hrun
    simp only [get, map_eq_ok, orRaise_eq_ok] at hupload
    obtain ⟨found, hfound, rfl⟩ := hupload
    have hnext : Kept s (saveUpload { found.value with state := .aborted }
        (s.saveRun { row.value with state := .cancelled })) := by
      refine Kept.saveUpload (t := s.saveRun _) (Kept.refl s) fun other hother hfinished => ?_
      -- An upload that is being created is not finished.
      have hother' : s.uploads.lookup task.upload.id = some other := by
        rw [← hheld.uploadId, ← hvalue, ← h.uploads.key_eq hfound]
        exact hother
      have hupload := hheld.upload
      rw [hother', Option.map_some, Option.some.injEq] at hupload
      have hinspects := hheld.finished (hupload ▸ hfinished)
      rw [Operation.Inspects, ← hheld.operation, ← hvalue, hbegin] at hinspects
      simp at hinspects
    exact ⟨hnext, hnext, hnext⟩
  | restart =>
    rw [hevent] at hlasting
    have hnext := kept_recover h hlasting
    exact wp_perform.mpr ⟨hnext, hnext⟩

omit [Hash (Identity × Body)] [Hash (Identity × CreateUpload)] in
/-- A restart finds what is recorded. -/
theorem recorded_restart (h : Recorded s) : Recorded s.restart := by
  refine ⟨h.uploads.mapRows fun row => ?_, h.runs.mapRows fun row => ?_, fun id hnone => ?_, h.once,
    h.quiet⟩
  · dsimp only
    split_ifs <;> rfl
  · dsimp only
    split_ifs <;> rfl
  · have hlookup := (Table.lookup_mapRows s.uploads _ id).symm.trans hnone
    exact h.fresh id (Option.map_eq_none_iff.mp hlookup)

/-- Every operation keeps the tables consistent. -/
theorem wp_act (h : Consistent s) (event : Event) :
    wp (act event) (fun _ => Consistent) (fun _ => Consistent) Recorded s := by
  cases event with
  | beginUpload id connectionId body request => exact wp_beginUpload h id connectionId body request
  | operate identity body request => exact wp_operate h identity body request
  | start run => exact wp_start h run
  | send run => exact wp_send h run
  | committing run => exact wp_committing h run
  | finish run receipt => exact wp_finish h run receipt
  | fail run cancelled error => exact wp_fail h run cancelled error
  | cancelCreated run => exact wp_cancelCreated h run
  | restart =>
    have hrecorded := recorded_restart h.toRecorded
    exact wp_perform.mpr ⟨hrecorded, hrecorded, .of_empty rfl⟩

omit [Hash (Identity × Body)] [Hash (Identity × CreateUpload)] in
/-- A program that ends has the property of its end. -/
theorem consistent_of_wp {action : Action Unit}
    (hwp : wp action (fun _ => Consistent) (fun _ => Consistent) Recorded s) :
    Consistent (cut action s none) := by
  have hend := hwp.2
  cases hresult : (action s).result with
  | ok u =>
    rw [hresult] at hend
    exact hend
  | error e =>
    rw [hresult] at hend
    exact hend

/-- So does a step that is cut off. -/
theorem consistent_step (h : Consistent s) (step : Step) : Consistent (s.step step) := by
  unfold Store.step
  split
  · exact ⟨recorded_restart h.toRecorded, .of_empty rfl⟩
  · exact h
  · exact consistent_of_wp (wp_act h _)
  · exact (cut_of_wp (wp_act h _) h.toRecorded _).down

/-- A step keeps what is finished. -/
theorem kept_step (h : Consistent s) (step : Step) (hlasting : Lasting s step) :
    Kept s (s.step step) := by
  have hwp := wp_act_kept h step hlasting
  by_cases hrestart : step.event = .restart
  · have hstep : s.step step = s.restart := by simp [Store.step, hrestart]
    rw [hstep]
    rw [hrestart] at hwp
    exact cut_of_wp hwp (.refl s) none
  · unfold Store.step
    split
    · contradiction
    · exact .refl s
    · exact cut_of_wp hwp (.refl s) none
    · exact cut_of_wp hwp (.refl s) _

omit [Hash (Identity × Body)] [Hash (Identity × CreateUpload)] in
theorem consistent_initial : Consistent initial where
  toRecorded := ⟨⟨nofun⟩, ⟨nofun⟩, fun _ _ => rfl, fun _ => Nat.zero_le 1, nofun⟩
  toTasked := .of_empty rfl

/-- In every run the provider is asked to create an upload at most once, and gets no part and no
completion while the upload is recorded as `unknown`. In every run whose events meet the condition a
finished upload stays in its state. -/
theorem upload_finality (steps : List Step) :
    (∀ id, ((run step initial steps).creations id).length ≤ 1) ∧
    (∀ request ∈ (run step initial steps).sent,
      request.operation = .part ∨ request.operation = .complete →
      request.recorded ≠ some .unknown) ∧
    (Along step Lasting initial steps → ∀ n id row,
      (run step initial (steps.take n)).uploads.lookup id = some row → row.value.state.Finished →
      ∃ row', (run step initial steps).uploads.lookup id = some row' ∧
        row'.value.state = row.value.state) := by
  have hconsistent : Consistent (run step initial steps) :=
    run_invariant (I := Consistent) (fun s a hs => consistent_step hs a) consistent_initial steps
  refine ⟨hconsistent.once, hconsistent.quiet, fun hrun n id row hrow hfinished => ?_⟩
  -- The run is its first part and the rest of it.
  rw [← List.take_append_drop n steps, along_append] at hrun
  have hmiddle : Consistent (run step initial (steps.take n)) :=
    run_invariant (I := Consistent) (fun s a hs => consistent_step hs a) consistent_initial _
  have hkept : Kept (run step initial (steps.take n))
      (run step (run step initial (steps.take n)) (steps.drop n)) := by
    have hrest := hrun.2
    generalize run step initial (steps.take n) = s at hmiddle hrest
    generalize steps.drop n = rest at hrest
    induction rest generalizing s with
    | nil => exact .refl s
    | cons a rest ih =>
      exact (kept_step hmiddle a hrest.1).trans (ih _ (consistent_step hmiddle a) hrest.2)
  rw [← run_append, List.take_append_drop] at hkept
  exact hkept id row hrow hfinished

/-- In every run, with stops between any two writes, a task works with what the database has: the rows
of its run and of its upload are the ones that it holds, and no other task works on the upload. A
write fails only with a stop here. -/
theorem tasks_current (steps : List Step) :
    let s := run step initial steps
    ∀ id task, s.tasks.lookup id = some task → (s.runs.lookup id).map Row.value = some task.value ∧
      (s.uploads.lookup task.upload.id).map Row.value = some task.upload ∧
      ∀ id' task', s.tasks.lookup id' = some task' → task'.upload.id = task.upload.id → id' = id := by
  intro s id task htask
  have h : Consistent s :=
    run_invariant (I := Consistent) (fun s a hs => consistent_step hs a) consistent_initial steps
  have hheld := h.held htask
  exact ⟨hheld.run, hheld.upload, fun id' task' htask' => h.one htask' htask⟩

end Finished

end Store

namespace Example

open Store

scoped instance bodies : Hash (Identity × Body) where
  digest value := BitVec.ofNat 256 (value.1.toNat + value.2.cursor)

scoped instance creations : Hash (Identity × CreateUpload) where
  digest value := BitVec.ofNat 256 (value.1.toNat + value.2.fileIndex)

def request (key : String) (runId : Identity) : Store.Request := ⟨⟨1, 2⟩, key, runId, 4, .ok ()⟩

/-- A run that is admitted, started and sent. -/
def sending (run : Identity) : List Step := [⟨.start run, none⟩, ⟨.send run, none⟩]

/-- An upload is created and completed. -/
def completing : List Step :=
  [⟨.beginUpload 10 20 ⟨"object", 30, 0⟩ (request "key-upload" 1), none⟩] ++ sending 1 ++
    [⟨.finish 1 (.created "upload-id" 8 1), none⟩,
      ⟨.operate 10 ⟨.complete, none, 0⟩ (request "key-complete" 2), none⟩] ++ sending 2 ++
    [⟨.committing 2, none⟩, ⟨.finish 2 .completed, none⟩]

/-- The controller is restarted while the parts of a completed upload are listed. -/
def inspecting : List Step :=
  completing ++ [⟨.operate 10 ⟨.status, none, 0⟩ (request "key-status" 3), none⟩, ⟨.restart, none⟩]

/-- A completed upload is recorded as `unknown` after the restart. -/
theorem not_upload_finality_restarted :
    ¬∀ (steps : List Step) (n : ℕ) (id : Identity) (row : Row Upload),
      (run step initial (steps.take n)).uploads.lookup id = some row →
      row.value.state.Finished → ∃ row', (run step initial steps).uploads.lookup id = some row' ∧
        row'.value.state = row.value.state := by
  intro h
  have hcompleted : ((run step initial (inspecting.take 9)).uploads.lookup 10).map
      (fun row => row.value.state) = some .completed := by decide +kernel
  have hunknown : ((run step initial inspecting).uploads.lookup 10).map
      (fun row => row.value.state) = some .unknown := by decide +kernel
  obtain ⟨row, hrow, hstate⟩ := Option.map_eq_some_iff.mp hcompleted
  obtain ⟨row', hrow', hsame⟩ := h inspecting 9 10 row hrow (.inl hstate)
  rw [hrow', Option.map_some, hsame, hstate] at hunknown
  cases hunknown

/-- The state of the upload that a task works on. -/
def stateOf (s : Store) (run : Identity) : Option UploadState :=
  (s.tasks.lookup run).bind fun task =>
    (s.uploads.lookup task.upload.id).map fun row => row.value.state

/-- A receipt for an open upload is welcome. -/
theorem lasting_of_open {s : Store} {run : Identity} {receipt : Receipt} (state : UploadState)
    (h : stateOf s run = some state) (hopen : ¬state.Finished) :
    Lasting s ⟨.finish run receipt, none⟩ := by
  intro task row htask hrow hfinished
  rw [stateOf, htask, Option.bind_some, hrow, Option.map_some, Option.some.injEq] at h
  exact absurd (h ▸ hfinished) hopen

/-- The parts of a completed upload cannot be listed any more. -/
def listing : List Step :=
  completing ++ [⟨.operate 10 ⟨.status, none, 0⟩ (request "key" 3), none⟩, ⟨.start 3, none⟩,
    ⟨.send 3, none⟩, ⟨.fail 3 false ("not_found", ""), none⟩]

theorem upload_finality_listed :
    ∃ row, (run step initial listing).uploads.lookup 10 = some row ∧
      row.value.state = .completed := by
  have hrun : Along step Lasting initial listing := by
    simp only [listing, completing, sending, List.cons_append, List.nil_append, along_cons]
    exact ⟨trivial, trivial, trivial, lasting_of_open .creating (by decide +kernel) (by decide),
      trivial, trivial, trivial, trivial,
      lasting_of_open .uploading (by decide +kernel) (by decide), trivial, trivial, trivial,
      trivial, trivial⟩
  have hcompleted : ((run step initial (listing.take 9)).uploads.lookup 10).map
      (fun row => row.value.state) = some .completed := by decide +kernel
  obtain ⟨row, hrow, hstate⟩ := Option.map_eq_some_iff.mp hcompleted
  obtain ⟨row', hrow', hsame⟩ := (upload_finality listing).2.2 hrun 9 10 row hrow (.inl hstate)
  exact ⟨row', hrow', hsame.trans hstate⟩

end Example

end Ficc.Sources
