import Ficc.Datasets.Inspections

/-!
# What the record of an inspection covers

The record of a run agrees with its receipts as long as no task saves its record after a transaction
of it has failed when the record in memory had changed, and no text that is stored is too long or
says the number of another file (`consistent_run`). The counterexamples are a task whose only
transaction fails at the record, so that the `finally` stores that the file is complete, and a
scanner whose result has an entry `file_index` of its own.

## Main results

* `Kept.step`: every other event keeps the records and the receipts together.
* `consistent_run`: then they agree after every run, and the validation accepts them.
-/

namespace Ficc.Datasets.Inspections

open Execution (Identity Digest)
open Utf8 JsonText

variable {D : Type} {s s' : State D} {run : Identity}

/-! ### The worst outcome -/

theorem foldl_worst (rest : List Outcome) (first : Outcome) :
    let best := rest.foldl
      (fun best next => if PRIORITY best < PRIORITY next then next else best) first
    best ∈ first :: rest ∧ ∀ outcome ∈ first :: rest, PRIORITY outcome ≤ PRIORITY best := by
  induction rest generalizing first with
  | nil =>
    refine ⟨List.mem_singleton_self first, fun outcome hmem => ?_⟩
    rw [List.mem_singleton.mp hmem]
    exact le_rfl
  | cons next rest ih =>
    obtain ⟨hmem, hmax⟩ := ih (if PRIORITY first < PRIORITY next then next else first)
    rw [List.foldl_cons]
    refine ⟨?_, ?_⟩
    · obtain hbest | hlater := List.mem_cons.mp hmem
      · rw [hbest]
        split
        · exact List.mem_cons_of_mem _ List.mem_cons_self
        · exact List.mem_cons_self
      · exact List.mem_cons_of_mem _ (List.mem_cons_of_mem _ hlater)
    · -- The better of the first two is not worse than either.
      have hboth : PRIORITY first ≤ PRIORITY (if PRIORITY first < PRIORITY next then next else first) ∧
          PRIORITY next ≤ PRIORITY (if PRIORITY first < PRIORITY next then next else first) := by
        split <;> omega
      have hbest := hmax _ List.mem_cons_self
      rw [List.forall_mem_cons, List.forall_mem_cons]
      exact ⟨hboth.1.trans hbest, hboth.2.trans hbest,
        fun outcome houtcome => hmax outcome (List.mem_cons_of_mem _ houtcome)⟩

/-- The worst outcome is one of them. -/
theorem worst_mem {outcomes : List Outcome} {outcome : Outcome}
    (h : worst outcomes = some outcome) : outcome ∈ outcomes := by
  cases outcomes with
  | nil => cases h
  | cons first rest =>
    obtain rfl := Option.some.inj h
    exact (foldl_worst rest first).1

/-- When the worst outcome is no detection, every outcome is. -/
theorem eq_of_worst_noDetection {outcomes : List Outcome}
    (h : worst outcomes = some .noDetection) : ∀ outcome ∈ outcomes, outcome = .noDetection := by
  cases outcomes with
  | nil => exact fun _ hmem => (nomatch hmem)
  | cons first rest =>
    intro outcome hmem
    have hmax := (foldl_worst rest first).2 outcome hmem
    rw [Option.some.inj h] at hmax
    have hzero : ∀ outcome : Outcome, PRIORITY outcome ≤ PRIORITY .noDetection →
        outcome = .noDetection := by
      intro outcome hle
      cases outcome <;> first | rfl | exact absurd hle (by decide)
    exact hzero outcome hmax

/-! ### The store -/

@[simp]
theorem Database.policy_policySave (db : Database D) (value : Policy D) (identity : Identity) :
    (db.policySave value).policy identity =
      if identity = value.id then value else db.policy identity := by
  rw [policySave, policy, Table.lookup_insert_eq]
  split <;> rfl

variable {stored : Record} {task : Task} {tasks : Table Identity Task} {rows : List Row}
  {saved : Bool}

theorem Database.lookup_save {db : Database D} (h : db.runs.lookup run = some stored)
    (value : Record) (other : Identity) :
    (db.save run value).runs.lookup other =
      if other = run then some value else db.runs.lookup other := by
  rw [save, Table.lookup_modify, h]
  rfl

/-- The rows of a run after a receipt is stored. -/
theorem Database.rows_append (db : Database D) (row : Row) (other : Identity) :
    ({ db with files := db.files ++ [row] } : Database D).rows other =
      db.rows other ++ if row.run = other then [row] else [] := by
  rw [rows, rows, List.filter_append]
  by_cases h : row.run = other <;> simp [h]

/-! ### What is kept -/

/-- The receipts are those of the first files of the dataset. -/
structure Receipts (files : List File) (rows : List Row) : Prop where
  numbers : rows.map Row.fileIndex = List.range rows.length
  bound : ∀ row ∈ rows, ∃ file, files[row.fileIndex]? = some file ∧
    row.receipt.sha256 = file.sha256 ∧ row.receipt.bytes = file.size
  fits : ∀ row ∈ rows, row.receipt.Fits row.fileIndex

/-- The dataset is quarantined, or the owner has decided since a detection was stored. -/
def State.Held (s : State D) (dataset : Identity) : Prop :=
  (s.db.policy dataset).quarantined = true ∨ dataset ∈ s.decided

/-- The record of a run agrees with its dataset and with its receipts. -/
structure Covered (s : State D) (run : Identity) (value : Record) : Prop where
  dataset : ∃ dataset, s.db.datasets.lookup value.datasetId = some dataset ∧
    dataset.projectId = value.projectId ∧ dataset.manifestDigest = value.manifestDigest ∧
    value.totalFiles = dataset.files.length ∧ Receipts dataset.files (s.db.rows run)
  counted : value.completedFiles = (s.db.rows run).length
  clean : value.outcome = .noDetection → (s.db.rows run).length = value.totalFiles ∧
    ∀ row ∈ s.db.rows run, row.receipt.outcome = .noDetection
  detected : value.outcome = .detected → ∃ row ∈ s.db.rows run, row.receipt.outcome = .detected
  held : ∀ row ∈ s.db.rows run, row.receipt.outcome = .detected → s.Held value.datasetId
  fits : value.Fits run

/-- The values are of one run. -/
structure SameRun (value value' : Record) : Prop where
  projectId : value'.projectId = value.projectId
  datasetId : value'.datasetId = value.datasetId
  manifestDigest : value'.manifestDigest = value.manifestDigest
  totalFiles : value'.totalFiles = value.totalFiles

/-- What the task has in memory agrees with the receipts, unless a transaction of it is torn. -/
def Task.Agrees (task : Task) (rows : List Row) : Prop :=
  match task.stage with
  | .queued | .scanning =>
    task.torn = false ∧ task.value.completedFiles = rows.length ∧ task.number = rows.length ∧
      task.outcomes = rows.map (fun row => row.receipt.outcome) ∧ task.value.outcome = .incomplete
  | .closing none =>
    task.value.completedFiles = rows.length ∧ rows.length = task.files.length ∧
      task.outcomes = rows.map (fun row => row.receipt.outcome) ∧
      worst task.outcomes = some task.value.outcome
  | .closing (some _) =>
    task.torn = false → task.value.completedFiles = rows.length ∧
      (.detected ∈ task.outcomes → ∃ row ∈ rows, row.receipt.outcome = .detected)
  | .dropped | .ended => True

/-- The task works on a stored run. -/
structure Follows (s : State D) (run : Identity) (task : Task) : Prop where
  stored : ∃ value, s.db.runs.lookup run = some value ∧ SameRun value task.value
  files : ∃ dataset, s.db.datasets.lookup task.value.datasetId = some dataset ∧
    task.files = dataset.files
  agrees : task.Agrees (s.db.rows run)

/-- The records, the receipts and the tasks fit together. -/
structure Kept (s : State D) : Prop where
  policyId : ∀ identity, (s.db.policy identity).id = identity
  owned : ∀ row ∈ s.db.files, ∃ value, s.db.runs.lookup row.run = some value
  runs : ∀ run value, s.db.runs.lookup run = some value → Covered s run value
  tasks : ∀ run task, s.tasks.lookup run = some task → Follows s run task

/-! ### Frames -/

/-- What every event leaves of the datasets. -/
structure Frame (s s' : State D) : Prop where
  datasets : ∀ identity dataset, s.db.datasets.lookup identity = some dataset →
    s'.db.datasets.lookup identity = some dataset
  held : ∀ identity, s.Held identity → s'.Held identity
  policyId : ∀ identity, (s'.db.policy identity).id = identity

/-- What is covered stays covered. -/
theorem Covered.mono {value : Record} (h : Covered s run value) (hframe : Frame s s')
    (hrows : s'.db.rows run = s.db.rows run) : Covered s' run value := by
  obtain ⟨dataset, hlookup, hproject, hdigest, htotal, hreceipts⟩ := h.dataset
  refine ⟨⟨dataset, hframe.datasets _ _ hlookup, hproject, hdigest, htotal, ?_⟩, ?_, ?_, ?_, ?_,
    h.fits⟩
  · rw [hrows]; exact hreceipts
  · rw [hrows]; exact h.counted
  · rw [hrows]; exact h.clean
  · rw [hrows]; exact h.detected
  · rw [hrows]
    exact fun row hrow hdetected => hframe.held _ (h.held row hrow hdetected)

/-- A task still follows its run. -/
theorem Follows.mono (h : Follows s run task) (hframe : Frame s s')
    (hrows : s'.db.rows run = s.db.rows run)
    (hstored : s'.db.runs.lookup run = s.db.runs.lookup run) : Follows s' run task := by
  obtain ⟨dataset, hlookup, hfiles⟩ := h.files
  refine ⟨?_, ⟨dataset, hframe.datasets _ _ hlookup, hfiles⟩, ?_⟩
  · rw [hstored]; exact h.stored
  · rw [hrows]; exact h.agrees

/-- The rule for an event that touches one run. -/
theorem Kept.touch (h : Kept s) (run : Identity) (hframe : Frame s s')
    (howned : ∀ row ∈ s'.db.files, ∃ value, s'.db.runs.lookup row.run = some value)
    (hothers : ∀ other, other ≠ run → s'.db.runs.lookup other = s.db.runs.lookup other ∧
      s'.db.rows other = s.db.rows other ∧ s'.tasks.lookup other = s.tasks.lookup other)
    (hrun : ∀ value, s'.db.runs.lookup run = some value → Covered s' run value)
    (htask : ∀ task, s'.tasks.lookup run = some task → Follows s' run task) : Kept s' := by
  refine ⟨hframe.policyId, howned, fun other value hvalue => ?_, fun other task hother => ?_⟩
  · obtain rfl | hne := eq_or_ne other run
    · exact hrun value hvalue
    · obtain ⟨hstored, hrows, -⟩ := hothers other hne
      rw [hstored] at hvalue
      exact (h.runs other value hvalue).mono hframe hrows
  · obtain rfl | hne := eq_or_ne other run
    · exact htask task hother
    · obtain ⟨hstored, hrows, htasks⟩ := hothers other hne
      rw [htasks] at hother
      exact (h.tasks other task hother).mono hframe hrows hstored

/-- The rule for an event that changes a task in memory alone. -/
theorem Kept.setTask (h : Kept s) (hfollows : Follows s run task) :
    Kept (s.setTask run task) := by
  have hframe : Frame s (s.setTask run task) := ⟨fun _ _ h => h, fun _ h => h, h.policyId⟩
  refine h.touch run hframe h.owned (fun other hne => ⟨rfl, rfl, ?_⟩) (fun value hvalue => ?_)
    fun other hother => ?_
  · rw [State.setTask, Table.lookup_insert_eq, if_neg hne]
  · exact (h.runs run value hvalue).mono hframe rfl
  · rw [State.setTask, Table.lookup_insert_eq, if_pos rfl] at hother
    obtain rfl := Option.some.inj hother
    exact hfollows.mono hframe rfl rfl

/-- The rule for an event that saves the record of a run. -/
theorem Kept.save (h : Kept s) {value : Record} (hstored : s.db.runs.lookup run = some stored)
    (hvalue : Covered s run value)
    (hothers : ∀ other, other ≠ run → tasks.lookup other = s.tasks.lookup other)
    (htask : ∀ task, tasks.lookup run = some task → Follows s run task ∧ SameRun value task.value) :
    Kept { s with db := s.db.save run value, tasks := tasks } := by
  have hframe : Frame s { s with db := s.db.save run value, tasks := tasks } :=
    ⟨fun _ _ h => h, fun _ h => h, h.policyId⟩
  have hlookup := Database.lookup_save hstored value
  refine h.touch run hframe (fun row hrow => ?_) (fun other hne => ⟨?_, rfl, hothers other hne⟩)
    (fun found hfound => ?_) fun task hlookup' => ?_
  · obtain ⟨found, hfound⟩ := h.owned row hrow
    show ∃ value', (s.db.save run value).runs.lookup row.run = some value'
    rw [hlookup]
    split
    · exact ⟨value, rfl⟩
    · exact ⟨found, hfound⟩
  · exact (hlookup other).trans (if_neg hne)
  · have hsame : some value = some found := ((hlookup run).trans (if_pos rfl)).symm.trans hfound
    obtain rfl := Option.some.inj hsame
    exact hvalue.mono hframe rfl
  · obtain ⟨hfollows, hsame⟩ := htask task hlookup'
    exact ⟨⟨value, (hlookup run).trans (if_pos rfl), hsame⟩, hfollows.files, hfollows.agrees⟩

theorem SameRun.refl (value : Record) : SameRun value value := ⟨rfl, rfl, rfl, rfl⟩

theorem SameRun.trans {a b c : Record} (h : SameRun a b) (h' : SameRun b c) : SameRun a c :=
  ⟨h'.projectId.trans h.projectId, h'.datasetId.trans h.datasetId,
    h'.manifestDigest.trans h.manifestDigest, h'.totalFiles.trans h.totalFiles⟩

/-- Another record of the same run. -/
theorem Covered.of_sameRun {value : Record} (h : Covered s run stored)
    (hsame : SameRun stored value) (hcounted : value.completedFiles = (s.db.rows run).length)
    (hclean : value.outcome = .noDetection → (s.db.rows run).length = value.totalFiles ∧ ∀ row ∈ s.db.rows run, row.receipt.outcome = .noDetection)
    (hdetected : value.outcome = .detected → ∃ row ∈ s.db.rows run, row.receipt.outcome = .detected)
    (hfits : value.Fits run) : Covered s run value := by
  obtain ⟨dataset, hlookup, hproject, hdigest, htotal, hreceipts⟩ := h.dataset
  refine ⟨⟨dataset, hsame.datasetId ▸ hlookup, ?_, ?_, ?_, hreceipts⟩, hcounted, hclean,
    hdetected, ?_, hfits⟩
  · rw [hsame.projectId, hproject]
  · rw [hsame.manifestDigest, hdigest]
  · rw [hsame.totalFiles, htotal]
  · rw [hsame.datasetId]
    exact h.held

/-- An incomplete outcome says nothing about the receipts. -/
theorem Covered.of_incomplete {value : Record} (h : Covered s run stored)
    (hsame : SameRun stored value) (hcounted : value.completedFiles = (s.db.rows run).length)
    (hincomplete : value.outcome = .incomplete) (hfits : value.Fits run) :
    Covered s run value := by
  refine h.of_sameRun hsame hcounted (fun hclean => ?_) (fun hdetected => ?_) hfits
  · exact absurd (hincomplete.symm.trans hclean) (by decide)
  · exact absurd (hincomplete.symm.trans hdetected) (by decide)

/-! ### Events of a task -/

/-- The task is at one of these stages. -/
theorem State.at?_eq_some {stages : List Stage} (h : s.at? run stages = some task) :
    s.tasks.lookup run = some task ∧ task.stage ∈ stages := by
  rw [State.at?, Option.filter_eq_some_iff, decide_eq_true_eq] at h
  exact h

/-- A task that goes on with another value of its run. -/
theorem Follows.next {task' : Task} (h : Follows s run task)
    (hsame : SameRun task.value task'.value) (hfiles : task'.files = task.files)
    (hagrees : task'.Agrees (s.db.rows run)) : Follows s run task' := by
  obtain ⟨value, hvalue, hstored⟩ := h.stored
  obtain ⟨dataset, hdataset, htask⟩ := h.files
  refine ⟨⟨value, hvalue, hstored.trans hsame⟩, ⟨dataset, ?_, hfiles.trans htask⟩, hagrees⟩
  rw [hsame.datasetId]
  exact hdataset

/-- A task that stops scanning. -/
theorem Task.Agrees.closing (h : task.Agrees rows) (hscanning : task.stage = .scanning)
    (cause : Cause) :
    ({ task with stage := .closing (some cause) } : Task).Agrees rows := by
  simp only [Task.Agrees, hscanning] at h
  obtain ⟨-, hcounted, -, houtcomes, -⟩ := h
  refine fun _ => ⟨hcounted, fun hdetected => ?_⟩
  rw [houtcomes] at hdetected
  exact List.mem_map.mp hdetected

/-- A start keeps the tables. -/
theorem Kept.start (h : Kept s) (hstart : s.start run saved = some s')
    (hfits : saved = true → ∀ task, s.tasks.lookup run = some task → task.value.started.Fits run) :
    Kept s' := by
  obtain ⟨task, htask, rfl⟩ := Option.map_eq_some_iff.mp hstart
  obtain ⟨hlookup, hstage⟩ := State.at?_eq_some htask
  have hqueued : task.stage = .queued := List.mem_singleton.mp hstage
  have hfollows := h.tasks run task hlookup
  obtain ⟨stored, hstored, hsame⟩ := hfollows.stored
  have hagrees := hfollows.agrees
  simp only [Task.Agrees, hqueued] at hagrees
  obtain ⟨htorn, hcounted, hnumber, houtcomes, hincomplete⟩ := hagrees
  have hnext : SameRun task.value task.value.started := ⟨rfl, rfl, rfl, rfl⟩
  split
  · next hsaved =>
    have hcovered : Covered s run task.value.started :=
      (h.runs run stored hstored).of_incomplete (hsame.trans hnext) hcounted hincomplete
        (hfits hsaved task hlookup)
    refine h.save hstored hcovered (fun other hne => ?_) fun other hother => ?_
    · rw [Table.lookup_insert_eq, if_neg hne]
    · rw [Table.lookup_insert_eq, if_pos rfl] at hother
      obtain rfl := Option.some.inj hother
      refine ⟨hfollows.next hnext rfl ?_, .refl _⟩
      exact ⟨htorn, hcounted, hnumber, houtcomes, hincomplete⟩
  · refine h.setTask (hfollows.next hnext rfl ?_)
    intro _
    refine ⟨hcounted, fun hdetected => ?_⟩
    rw [houtcomes] at hdetected
    exact List.mem_map.mp hdetected

/-- A task has all files of its run. -/
theorem Kept.length_files (h : Kept s) (hfollows : Follows s run task) :
    task.files.length = task.value.totalFiles := by
  obtain ⟨stored, hstored, hsame⟩ := hfollows.stored
  obtain ⟨dataset, hlookup, hfiles⟩ := hfollows.files
  obtain ⟨dataset', hlookup', -, -, htotal, -⟩ := (h.runs run stored hstored).dataset
  rw [hsame.datasetId] at hlookup
  obtain rfl := Option.some.inj (hlookup.symm.trans hlookup')
  rw [hfiles, hsame.totalFiles, htotal]

/-- A failure keeps the tables. -/
theorem Kept.raised (h : Kept s) {cause : Cause} (hraised : s.raised run cause = some s') :
    Kept s' := by
  obtain ⟨task, htask, rfl⟩ := Option.map_eq_some_iff.mp hraised
  obtain ⟨hlookup, hstage⟩ := State.at?_eq_some htask
  have hfollows := h.tasks run task hlookup
  exact h.setTask (hfollows.next (.refl _) rfl
    (hfollows.agrees.closing (List.mem_singleton.mp hstage) cause))

theorem Kept.finished (h : Kept s) (hfinished : s.finished run = some s') : Kept s' := by
  obtain ⟨task, htask, hfinished⟩ := Option.bind_eq_some_iff.mp hfinished
  obtain ⟨hlookup, hstage⟩ := State.at?_eq_some htask
  have hscanning : task.stage = .scanning := List.mem_singleton.mp hstage
  have hfollows := h.tasks run task hlookup
  split_ifs at hfinished with hlast
  split at hfinished
  · next outcome hworst =>
    obtain rfl := Option.some.inj hfinished
    have hagrees := hfollows.agrees
    simp only [Task.Agrees, hscanning] at hagrees
    obtain ⟨-, hcounted, hnumber, houtcomes, -⟩ := hagrees
    exact h.setTask (hfollows.next ⟨rfl, rfl, rfl, rfl⟩ rfl
      ⟨hcounted, hnumber.symm.trans hlast, houtcomes, hworst⟩)
  · obtain rfl := Option.some.inj hfinished
    exact h.setTask (hfollows.next (.refl _) rfl (hfollows.agrees.closing hscanning .other))

/-- A cause says nothing about the files. -/
theorem Cause.outcome_ne (cause : Cause) :
    cause.outcome ≠ .detected ∧ cause.outcome ≠ .noDetection := by
  cases cause with
  | cancelled => decide
  | failure code =>
    rw [Cause.outcome]
    split <;> decide
  | os => decide
  | other => decide

/-- What the `finally` makes of the value. -/
theorem Task.closed_spec (task : Task) (cause : Option Cause) (now : Literal) :
    SameRun task.value (task.closed cause now) ∧
      (task.closed cause now).completedFiles = task.value.completedFiles ∧
      (task.closed cause now).state = .completed ∧
      ((task.closed cause now).outcome = .detected → .detected ∈ task.outcomes ∨
        cause = none ∧ task.value.outcome = .detected) ∧
      ((task.closed cause now).outcome = .noDetection →
        cause = none ∧ task.value.outcome = .noDetection) := by
  have houtcome (found : Outcome) :
      (if Outcome.detected ∈ task.outcomes then Outcome.detected else found) = .detected →
        .detected ∈ task.outcomes ∨ found = .detected := by
    split
    · next hmem => exact fun _ => .inl hmem
    · exact .inr
  have hclean (found : Outcome) :
      (if Outcome.detected ∈ task.outcomes then Outcome.detected else found) = .noDetection →
        found = .noDetection := by
    split
    · exact fun h => absurd h (by decide)
    · exact id
  cases cause with
  | none =>
    refine ⟨⟨rfl, rfl, rfl, rfl⟩, rfl, rfl, fun h => ?_, fun h => ⟨rfl, hclean _ h⟩⟩
    exact (houtcome _ h).imp_right fun hfound => ⟨rfl, hfound⟩
  | some cause =>
    obtain ⟨hnotDetected, hnotClean⟩ := cause.outcome_ne
    refine ⟨⟨rfl, rfl, rfl, rfl⟩, rfl, rfl, fun h => .inl ?_, fun h => ?_⟩
    · exact (houtcome _ h).resolve_right hnotDetected
    · exact absurd (hclean _ h) hnotClean

/-- The `finally` of a task that is not torn. -/
theorem Kept.close (h : Kept s) {now : Literal} {audited : Bool}
    (hclose : s.close run now saved audited = some s')
    (hcareful : saved = true → ∀ task, s.tasks.lookup run = some task → task.torn = false ∧ ∀ cause, task.stage = .closing cause → (task.closed cause now).Fits run)
    :
    Kept s' := by
  obtain ⟨task, hlookup, hclose⟩ := Option.bind_eq_some_iff.mp hclose
  have hfollows := h.tasks run task hlookup
  obtain ⟨stored, hstored, hsame⟩ := hfollows.stored
  split at hclose
  · next cause hstage =>
    obtain ⟨hnext, hcompleted, -, hdetected, hclean⟩ := task.closed_spec cause now
    cases saved with
    | false =>
      obtain rfl := Option.some.inj hclose
      exact h.setTask (hfollows.next hnext rfl trivial)
    | true =>
      obtain rfl := Option.some.inj hclose
      have hagrees := hfollows.agrees
      -- What the receipts say of the outcomes in memory.
      have hreceipts : task.value.completedFiles = (s.db.rows run).length ∧
          (.detected ∈ task.outcomes → ∃ row ∈ s.db.rows run, row.receipt.outcome = .detected) ∧
          (cause = none → (s.db.rows run).length = task.files.length ∧
            task.outcomes = (s.db.rows run).map (fun row => row.receipt.outcome) ∧
            worst task.outcomes = some task.value.outcome) := by
        simp only [Task.Agrees, hstage] at hagrees
        cases cause with
        | none =>
          obtain ⟨hcounted, hall, houtcomes, hworst⟩ := hagrees
          refine ⟨hcounted, fun hmem => ?_, fun _ => ⟨hall, houtcomes, hworst⟩⟩
          rw [houtcomes] at hmem
          exact List.mem_map.mp hmem
        | some cause =>
          obtain ⟨hcounted, hrow⟩ := hagrees (hcareful rfl task hlookup).1
          exact ⟨hcounted, hrow, fun hnone => absurd hnone (by simp)⟩
      obtain ⟨hcounted, hrow, hlast⟩ := hreceipts
      have hcovered : Covered s run (task.closed cause now) := by
        refine (h.runs run stored hstored).of_sameRun (hsame.trans hnext)
          (hcompleted.trans hcounted) ?_ ?_ ((hcareful rfl task hlookup).2 cause hstage)
        · intro houtcome
          obtain ⟨hnone, hvalue⟩ := hclean houtcome
          obtain ⟨hall, houtcomes, hworst⟩ := hlast hnone
          rw [hvalue] at hworst
          have hnoDetection := eq_of_worst_noDetection hworst
          rw [houtcomes] at hnoDetection
          refine ⟨?_, fun row hmem => hnoDetection _ (List.mem_map_of_mem hmem)⟩
          rw [hall, hnext.totalFiles]
          exact h.length_files hfollows
        · intro houtcome
          obtain hmem | ⟨hnone, hvalue⟩ := hdetected houtcome
          · exact hrow hmem
          · obtain ⟨-, -, hworst⟩ := hlast hnone
            rw [hvalue] at hworst
            exact hrow (worst_mem hworst)
      -- The task is forgotten, or it stays without a stage to go on from.
      refine h.save hstored hcovered (fun other hne => ?_) fun other hother => ?_
      · cases audited with
        | false => exact (Table.lookup_insert_eq _ _ _ _).trans (if_neg hne)
        | true => exact (Table.lookup_erase_eq _ _ _).trans (if_neg hne)
      · cases audited with
        | false =>
          have hended := ((Table.lookup_insert_eq _ _ _ _).trans (if_pos rfl)).symm.trans hother
          obtain rfl := Option.some.inj hended
          exact ⟨hfollows.next hnext rfl trivial, .refl _⟩
        | true => cases ((Table.lookup_erase_eq _ _ _).trans (if_pos rfl)).symm.trans hother
  · cases hclose

/-! ### The transaction of a file -/

/-- The database with the row of a receipt, and with the quarantine after a detection. -/
def Database.receive (db : Database D) (dataset : Identity) (row : Row) : Database D :=
  let db : Database D := { db with files := db.files ++ [row] }
  if row.receipt.outcome = .detected then db.quarantine dataset else db

/-- Every statement of the transaction that stores a receipt without a detection succeeds. -/
def Stores (fault : Option Fault) : Prop := fault = none ∨ fault = some .policy

/-- What a transaction does: it stores everything, or it fails before or after the value has
changed. -/
theorem transaction_cases (db : Database D) (run : Identity) (value : Record) (number : ℕ)
    (receipt : Receipt) (fault : Option Fault) :
    (Stores fault ∧ transaction db run value number receipt fault =
        (value.counted number,
          some ((db.receive value.datasetId ⟨run, number, receipt⟩).save run
            (value.counted number)))) ∨
      transaction db run value number receipt fault = (value, none) ∨
      transaction db run value number receipt fault = (value.counted number, none) ∧
        (fault = some .run ∨ fault = some .commit) := by
  have hstores (hreceipt : fault ≠ some .receipt) (hrun : ¬(fault = some .run ∨ fault = some .commit)) :
      Stores fault := by
    cases fault with
    | none => exact .inl rfl
    | some fault => cases fault <;> simp_all [Stores]
  rw [transaction]
  split_ifs with hreceipt hpolicy hdetected hrun hrun
  · exact .inr (.inl rfl)
  · exact .inr (.inl rfl)
  · exact .inr (.inr ⟨rfl, hrun⟩)
  · refine .inl ⟨hstores (fun h => hreceipt (.inl h)) hrun, ?_⟩
    rw [Database.receive, if_pos hdetected]
  · exact .inr (.inr ⟨rfl, hrun⟩)
  · refine .inl ⟨hstores (fun h => hreceipt (.inl h)) hrun, ?_⟩
    rw [Database.receive, if_neg hdetected]

/-- A receipt only adds its row. -/
theorem Database.receive_eq (db : Database D) (dataset : Identity) (row : Row) :
    (db.receive dataset row).datasets = db.datasets ∧ (db.receive dataset row).runs = db.runs ∧
      (db.receive dataset row).files = db.files ++ [row] := by
  rw [receive]
  split <;> exact ⟨rfl, rfl, rfl⟩

theorem Database.rows_receive (db : Database D) (dataset : Identity) (row : Row)
    (other : Identity) : (db.receive dataset row).rows other =
      db.rows other ++ if row.run = other then [row] else [] := by
  rw [← rows_append, rows, rows, (receive_eq db dataset row).2.2]

/-- The policies after a receipt is stored. -/
theorem Database.policy_receive {db : Database D} {dataset : Identity} (row : Row)
    (hid : (db.policy dataset).id = dataset) (identity : Identity) :
    (db.receive dataset row).policy identity =
      if row.receipt.outcome = .detected ∧ identity = dataset then
        { db.policy dataset with
          quarantined := true, revision := (db.policy dataset).revision + 1, exemption := none }
      else db.policy identity := by
  rw [receive]
  by_cases hdetected : row.receipt.outcome = .detected
  · have hsame : ({ db with files := db.files ++ [row] } : Database D).policy dataset =
        db.policy dataset := rfl
    rw [if_pos hdetected, quarantine, policy_policySave, hsame]
    simp only [hdetected, hid, true_and]
    rfl
  · rw [if_neg hdetected, if_neg fun h => hdetected h.1]
    rfl

/-- A receipt that is stored leaves the policies of the other datasets, and quarantines its own after
a detection. -/
theorem Kept.frame_receive (h : Kept s) {dataset : Identity} (row : Row) {value : Record}
    {decided : List Identity}
    (hdecided : decided = if row.receipt.outcome = .detected then s.decided.filter fun other => other ≠ dataset else s.decided)
    :
    Frame s ⟨(s.db.receive dataset row).save run value, tasks, decided⟩ := by
  have hpolicy (identity : Identity) :
      ((s.db.receive dataset row).save run value).policy identity =
        (s.db.receive dataset row).policy identity := rfl
  refine ⟨fun identity found hfound => ?_, fun identity hheld => ?_, fun identity => ?_⟩
  · show (s.db.receive dataset row).datasets.lookup identity = some found
    rw [(Database.receive_eq _ _ _).1, hfound]
  · show (((s.db.receive dataset row).save run value).policy identity).quarantined = true ∨
      identity ∈ decided
    rw [hpolicy, Database.policy_receive row (h.policyId dataset)]
    by_cases hdetected : row.receipt.outcome = .detected ∧ identity = dataset
    · rw [if_pos hdetected]
      exact .inl rfl
    · rw [if_neg hdetected]
      refine hheld.imp id fun hmem => ?_
      rw [hdecided]
      split
      · next houtcome =>
        have hne : identity ≠ dataset := fun heq => hdetected ⟨houtcome, heq⟩
        exact List.mem_filter.mpr ⟨hmem, decide_eq_true hne⟩
      · exact hmem
  · show (((s.db.receive dataset row).save run value).policy identity).id = identity
    rw [hpolicy, Database.policy_receive row (h.policyId dataset)]
    split
    · next hdetected => rw [hdetected.2]; exact h.policyId dataset
    · exact h.policyId identity

/-- The next receipt. -/
theorem Receipts.append {files : List File} (h : Receipts files rows) {file : File}
    (hfile : files[rows.length]? = some file) {receipt : Receipt}
    (hsha : receipt.sha256 = file.sha256) (hbytes : receipt.bytes = file.size)
    (hfits : receipt.Fits rows.length) :
    Receipts files (rows ++ [⟨run, rows.length, receipt⟩]) := by
  refine ⟨?_, fun row hrow => ?_, fun row hrow => ?_⟩
  · rw [List.map_append, h.numbers, List.length_append, List.length_singleton, List.range_succ]
    rfl
  · obtain hrow | hrow := List.mem_append.mp hrow
    · exact h.bound row hrow
    · rw [List.mem_singleton.mp hrow]
      exact ⟨file, hfile, hsha, hbytes⟩
  · obtain hrow | hrow := List.mem_append.mp hrow
    · exact h.fits row hrow
    · rw [List.mem_singleton.mp hrow]
      exact hfits

/-- The transaction of a file that stores everything. -/
theorem Kept.received (h : Kept s) (hlookup : s.tasks.lookup run = some task)
    (hscanning : task.stage = .scanning) {source : File} {receipt : Receipt}
    (hsource : task.files[task.number]? = some source) (hsha : receipt.sha256 = source.sha256)
    (hbytes : receipt.bytes = source.size) (hreceipt : receipt.Fits task.number)
    (hfits : (task.value.counted task.number).Fits run) :
    Kept ((⟨(s.db.receive task.value.datasetId ⟨run, task.number, receipt⟩).save run
        (task.value.counted task.number), s.tasks,
        if receipt.outcome = Outcome.detected then
          s.decided.filter fun other => other ≠ task.value.datasetId else s.decided⟩ :
        State D).setTask run
      { task with
        value := task.value.counted task.number
        outcomes := task.outcomes ++ [receipt.outcome], number := task.number + 1 }) := by
  set row : Row := ⟨run, task.number, receipt⟩ with hrow
  set value : Record := task.value.counted task.number with hvalue
  set next : Task := { task with
    value := value, outcomes := task.outcomes ++ [receipt.outcome], number := task.number + 1 }
  set decided := if receipt.outcome = Outcome.detected then
    s.decided.filter fun other => other ≠ task.value.datasetId else s.decided with hdecided
  set db := (s.db.receive task.value.datasetId row).save run value with hdb
  have hfollows := h.tasks run task hlookup
  obtain ⟨stored, hstored, hsame⟩ := hfollows.stored
  obtain ⟨dataset, hdataset, hfiles⟩ := hfollows.files
  have hagrees := hfollows.agrees
  simp only [Task.Agrees, hscanning] at hagrees
  obtain ⟨htorn, hcounted, hnumber, houtcomes, hincomplete⟩ := hagrees
  have hframe : Frame s ((⟨db, s.tasks, decided⟩ : State D).setTask run next) :=
    h.frame_receive row hdecided
  have hnext : SameRun task.value value := ⟨rfl, rfl, rfl, rfl⟩
  obtain ⟨-, hruns, hdbFiles⟩ := Database.receive_eq s.db task.value.datasetId row
  have hlookupRun (other : Identity) : db.runs.lookup other =
      if other = run then some value else s.db.runs.lookup other := by
    have hreceived : (s.db.receive task.value.datasetId row).runs.lookup run = some stored := by
      rw [hruns, hstored]
    rw [hdb, Database.lookup_save hreceived, hruns]
  have hrows (other : Identity) : db.rows other =
      s.db.rows other ++ if run = other then [row] else [] := Database.rows_receive _ _ _ _
  have hrowsRun : db.rows run = s.db.rows run ++ [row] := by rw [hrows, if_pos rfl]
  -- A detection among the receipts is the new one, or it was held before.
  have hheld : ∀ found ∈ db.rows run, found.receipt.outcome = .detected →
      ((⟨db, s.tasks, decided⟩ : State D).setTask run next).Held task.value.datasetId := by
    intro found hfound hdetected
    rw [hrowsRun] at hfound
    obtain hfound | hfound := List.mem_append.mp hfound
    · have hbefore := (h.runs run stored hstored).held found hfound hdetected
      rw [← hsame.datasetId] at hbefore
      exact hframe.held _ hbefore
    · obtain rfl := List.mem_singleton.mp hfound
      refine .inl ?_
      show ((s.db.receive task.value.datasetId row).policy task.value.datasetId).quarantined = true
      rw [Database.policy_receive row (h.policyId _), if_pos ⟨hdetected, rfl⟩]
  have hcovered : Covered ((⟨db, s.tasks, decided⟩ : State D).setTask run next) run value := by
    obtain ⟨dataset', hdataset', hproject, hdigest, htotal, hreceipts⟩ :=
      (h.runs run stored hstored).dataset
    rw [← hsame.datasetId, hdataset] at hdataset'
    obtain rfl := Option.some.inj hdataset'
    refine ⟨⟨dataset, hframe.datasets _ _ hdataset, ?_, ?_, ?_, ?_⟩, ?_, ?_, ?_, hheld, hfits⟩
    · exact hproject.trans hsame.projectId.symm
    · exact hdigest.trans hsame.manifestDigest.symm
    · exact hsame.totalFiles.trans htotal
    · show Receipts dataset.files (db.rows run)
      rw [hfiles, hnumber] at hsource
      rw [hnumber] at hreceipt
      rw [hrowsRun, hrow, hnumber]
      exact hreceipts.append hsource hsha hbytes hreceipt
    · show task.number + 1 = (db.rows run).length
      rw [hrowsRun, List.length_append, List.length_singleton, hnumber]
    · exact fun hclean => absurd (hincomplete.symm.trans hclean) (by decide)
    · exact fun hdetected => absurd (hincomplete.symm.trans hdetected) (by decide)
  refine h.touch run hframe (fun found hfound => ?_) (fun other hne => ⟨?_, ?_, ?_⟩)
    (fun found hfound => ?_) fun found hfound => ?_
  · show ∃ value', db.runs.lookup found.run = some value'
    rw [hlookupRun]
    by_cases hrun : found.run = run
    · exact ⟨value, if_pos hrun⟩
    · rw [if_neg hrun]
      have hmem : found ∈ s.db.files ++ [row] := hdbFiles ▸ hfound
      obtain hmem | hmem := List.mem_append.mp hmem
      · exact h.owned found hmem
      · exact absurd (congrArg Row.run (List.mem_singleton.mp hmem)) hrun
  · exact (hlookupRun other).trans (if_neg hne)
  · show db.rows other = s.db.rows other
    rw [hrows, if_neg (Ne.symm hne), List.append_nil]
  · rw [State.setTask, Table.lookup_insert_eq, if_neg hne]
  · have hfound' : some value = some found :=
      ((hlookupRun run).trans (if_pos rfl)).symm.trans hfound
    obtain rfl := Option.some.inj hfound'
    exact hcovered
  · rw [State.setTask, Table.lookup_insert_eq, if_pos rfl] at hfound
    obtain rfl := Option.some.inj hfound
    refine ⟨⟨value, (hlookupRun run).trans (if_pos rfl), .refl _⟩,
      ⟨dataset, hframe.datasets _ _ hdataset, hfiles⟩, ?_⟩
    have hlength : task.number + 1 = (db.rows run).length := by
      rw [hrowsRun, List.length_append, List.length_singleton, hnumber]
    show Task.Agrees next (db.rows run)
    simp only [Task.Agrees, next, hscanning]
    refine ⟨htorn, hlength, hlength, ?_, hincomplete⟩
    rw [hrowsRun, List.map_append, houtcomes]
    rfl

/-- The transaction of a file, as long as no record is saved after it has failed. -/
theorem Kept.scanned (h : Kept s) {receipt : Receipt} {fault : Option Fault}
    (hscanned : s.scanned run receipt fault = some s')
    (hfits : Stores fault → ∀ task, s.tasks.lookup run = some task →
      receipt.Fits task.number ∧ (task.value.counted task.number).Fits run) : Kept s' := by
  obtain ⟨task, htask, hscanned⟩ := Option.bind_eq_some_iff.mp hscanned
  obtain ⟨source, hsource, rfl⟩ := Option.map_eq_some_iff.mp hscanned
  obtain ⟨hlookup, hstage⟩ := State.at?_eq_some htask
  have hscanning : task.stage = .scanning := List.mem_singleton.mp hstage
  have hfollows := h.tasks run task hlookup
  obtain ⟨stored, hstored, hsame⟩ := hfollows.stored
  by_cases haccepted : receipt.accepted = false
  · rw [if_pos haccepted]
    exact h.setTask (hfollows.next (.refl _) rfl (hfollows.agrees.closing hscanning _))
  rw [if_neg haccepted]
  by_cases hbinding : receipt.sha256 ≠ source.sha256 ∨ receipt.bytes ≠ source.size
  · rw [if_pos hbinding]
    exact h.setTask (hfollows.next (.refl _) rfl (hfollows.agrees.closing hscanning _))
  rw [if_neg hbinding]
  simp only [not_or, ne_eq, not_not] at hbinding
  have hagrees := hfollows.agrees
  simp only [Task.Agrees, hscanning] at hagrees
  obtain ⟨htorn, hcounted, hnumber, houtcomes, hincomplete⟩ := hagrees
  -- Before the new receipt, a detection in memory is a detection that is stored.
  have hearlier : receipt.outcome ≠ .detected → .detected ∈ task.outcomes ++ [receipt.outcome] →
      ∃ row ∈ s.db.rows run, row.receipt.outcome = .detected := by
    intro hne hmem
    obtain hmem | hmem := List.mem_append.mp hmem
    · rw [houtcomes] at hmem
      exact List.mem_map.mp hmem
    · exact absurd (List.mem_singleton.mp hmem).symm hne
  obtain ⟨hstores, hdone⟩ | hfailed | ⟨hfailed, hfault⟩ :=
    transaction_cases s.db run task.value task.number receipt fault
  · rw [hdone]
    obtain ⟨hreceipt, hrecord⟩ := hfits hstores task hlookup
    exact h.received hlookup hscanning hsource hbinding.1 hbinding.2 hreceipt hrecord
  · rw [hfailed]
    refine h.setTask (hfollows.next (.refl _) rfl fun htorn' => ⟨hcounted, hearlier ?_⟩)
    simp only [decide_eq_false_iff_not, not_or] at htorn'
    exact htorn'.2.2
  · rw [hfailed]
    refine h.setTask (hfollows.next ⟨rfl, rfl, rfl, rfl⟩ rfl fun htorn' => ?_)
    simp only [decide_eq_false_iff_not, not_or] at htorn'
    obtain hfault | hfault := hfault
    · exact absurd hfault htorn'.1
    · exact absurd hfault htorn'.2.1

/-- A call of `cancel` that closes a run that never started. -/
theorem Kept.cancel (h : Kept s) {now : Literal} (hcancel : s.cancel run now saved = some s')
    (hfits : saved = true → ∀ value, s.db.runs.lookup run = some value → (value.cancelled now).Fits run) :
    Kept s' := by
  obtain ⟨task, htask, hcancel⟩ := Option.bind_eq_some_iff.mp hcancel
  obtain ⟨stored, hstored, rfl⟩ := Option.map_eq_some_iff.mp hcancel
  obtain ⟨hlookup, -⟩ := State.at?_eq_some htask
  have hfollows := h.tasks run task hlookup
  split
  · next hsaved =>
    have hcovered : Covered s run (stored.cancelled now) :=
      (h.runs run stored hstored).of_incomplete ⟨rfl, rfl, rfl, rfl⟩
        (h.runs run stored hstored).counted rfl (hfits hsaved stored hstored)
    refine h.save hstored hcovered (fun other hne => ?_) fun other hother => ?_
    · rw [Table.lookup_erase_eq, if_neg hne]
    · rw [Table.lookup_erase_eq, if_pos rfl] at hother
      cases hother
  · exact h.setTask (hfollows.next (.refl _) rfl trivial)

/-! ### Other events -/

/-- The rule for an event that leaves the runs, the receipts and the tasks. -/
theorem Kept.frame (h : Kept s) (hframe : Frame s s') (hruns : s'.db.runs = s.db.runs)
    (hfiles : s'.db.files = s.db.files) (htasks : s'.tasks = s.tasks) : Kept s' := by
  have hrows (run : Identity) : s'.db.rows run = s.db.rows run := by
    rw [Database.rows, Database.rows, hfiles]
  refine ⟨hframe.policyId, fun row hrow => ?_, fun run value hvalue => ?_, fun run task htask => ?_⟩
  · rw [hruns]
    exact h.owned row (hfiles ▸ hrow)
  · rw [hruns] at hvalue
    exact (h.runs run value hvalue).mono hframe (hrows run)
  · rw [htasks] at htask
    exact (h.tasks run task htask).mono hframe (hrows run) (by rw [hruns])

/-- A saved policy leaves a quarantine, or the owner has decided. -/
theorem Frame.policySave (h : Kept s) {datasets : Table Identity Dataset} {value : Policy D}
    {runs : Table Identity Record} {decided : List Identity}
    (hdatasets : ∀ identity dataset, s.db.datasets.lookup identity = some dataset → datasets.lookup identity = some dataset)
    (hquarantined : (s.db.policy value.id).quarantined = true → value.quarantined = true ∨ value.id ∈ decided)
    (hdecided : ∀ identity ∈ s.decided, identity ∈ decided) :
    Frame s ⟨(⟨datasets, s.db.safety, runs, s.db.files⟩ : Database D).policySave value, tasks,
      decided⟩ := by
  refine ⟨hdatasets, fun identity hheld => ?_, fun identity => ?_⟩
  · show ((Database.policySave _ value).policy identity).quarantined = true ∨ identity ∈ decided
    rw [Database.policy_policySave]
    split
    · next heq =>
      subst heq
      exact hheld.elim hquarantined fun hmem => .inr (hdecided _ hmem)
    · exact hheld.imp id (hdecided identity)
  · show ((Database.policySave _ value).policy identity).id = identity
    rw [Database.policy_policySave]
    split
    · next heq => exact heq.symm
    · exact h.policyId identity

theorem Kept.create (h : Kept s) {identity : Identity} {dataset : Dataset} {required : Bool}
    (hcreate : s.create identity dataset required = some s') : Kept s' := by
  rw [State.create] at hcreate
  split_ifs at hcreate with hexists
  obtain rfl := Option.some.inj hcreate
  refine h.frame (Frame.policySave h (fun other found hfound => ?_) ?_ fun _ hmem => hmem)
    rfl rfl rfl
  · -- The dataset is new, so that the others stay.
    have hne : other ≠ identity := by
      rintro rfl
      exact hexists (by rw [hfound]; rfl)
    rw [Table.lookup_insert_eq, if_neg hne, hfound]
  · intro hquarantined
    have hid : (s.db.policy identity).id = identity := h.policyId identity
    refine .inl ?_
    show (s.db.policy identity).quarantined = true
    rw [← hid]
    exact hquarantined

theorem Kept.update (h : Kept s) {dataset : Identity} {revision : ℕ}
    {sensitive required quarantined : Bool}
    (hupdate : s.update dataset revision sensitive required quarantined = some s') : Kept s' := by
  rw [State.update] at hupdate
  split_ifs at hupdate
  obtain rfl := Option.some.inj hupdate
  refine h.frame (Frame.policySave h (fun _ _ hfound => hfound) (fun _ => .inr ?_)
    fun _ hmem => List.mem_cons_of_mem _ hmem) rfl rfl rfl
  show (s.db.policy dataset).id ∈ dataset :: s.decided
  rw [h.policyId dataset]
  exact List.mem_cons_self

theorem Kept.exempt (h : Kept s) {dataset : Identity} {revision : ℕ}
    {exemption : Option (Exemption D)}
    (hexempt : s.exempt dataset revision exemption = some s') : Kept s' := by
  rw [State.exempt] at hexempt
  split_ifs at hexempt
  obtain rfl := Option.some.inj hexempt
  refine h.frame (Frame.policySave h (fun _ _ hfound => hfound) (fun hquarantined => .inl ?_)
    fun _ hmem => hmem) rfl rfl rfl
  have hid : (s.db.policy dataset).id = dataset := h.policyId dataset
  simpa only [hid] using hquarantined

/-- A new run has no receipts. -/
theorem Kept.submit (h : Kept s) {dataset subject project : Identity} {request : Request}
    (hsubmit : s.submit run dataset subject project request = some s')
    (hfits : ∀ manifest, s.db.datasets.lookup dataset = some manifest →
      (request.value subject project dataset manifest).Fits run) : Kept s' := by
  obtain ⟨manifest, hmanifest, hsubmit⟩ := Option.bind_eq_some_iff.mp hsubmit
  split_ifs at hsubmit with hrefused
  obtain rfl := Option.some.inj hsubmit
  simp only [not_or, ne_eq, not_not, Bool.not_eq_true, Option.isSome_eq_false_iff,
    Option.isNone_iff_eq_none] at hrefused
  obtain ⟨hproject, hnew, -⟩ := hrefused
  have hrows : s.db.rows run = [] := by
    refine List.filter_eq_nil_iff.mpr fun row hrow hrun => ?_
    obtain ⟨value, hvalue⟩ := h.owned row hrow
    rw [of_decide_eq_true hrun, hnew] at hvalue
    cases hvalue
  have hid : (s.db.policy dataset).id = dataset := h.policyId dataset
  set value : Record := request.value subject project dataset manifest with hvalue
  have hframe : Frame s ⟨(⟨s.db.datasets, s.db.safety, s.db.runs.insert run value,
      s.db.files⟩ : Database D).policySave { s.db.policy dataset with latestRun := some run },
      s.tasks.insert run ⟨value, manifest.files, [], 0, .queued, false⟩, s.decided⟩ := by
    refine Frame.policySave h (fun _ _ hfound => hfound) (fun hquarantined => .inl ?_)
      fun _ hmem => hmem
    simpa only [hid] using hquarantined
  have hinsert (other : Identity) : (s.db.runs.insert run value).lookup other =
      if other = run then some value else s.db.runs.lookup other := Table.lookup_insert_eq ..
  refine h.touch run hframe (fun row hrow => ?_) (fun other hne => ⟨?_, rfl, ?_⟩)
    (fun found hfound => ?_) fun task htask => ?_
  · obtain ⟨found, hfound⟩ := h.owned row hrow
    refine ⟨found, (hinsert row.run).trans ?_⟩
    have hne : row.run ≠ run := fun heq => by rw [heq, hnew] at hfound; cases hfound
    rw [if_neg hne, hfound]
  · exact (hinsert other).trans (if_neg hne)
  · rw [Table.lookup_insert_eq, if_neg hne]
  · have hsame : some value = some found := ((hinsert run).trans (if_pos rfl)).symm.trans hfound
    obtain rfl := Option.some.inj hsame
    refine ⟨⟨manifest, hmanifest, hproject, rfl, rfl, ?_⟩, ?_, ?_, ?_, ?_, hfits manifest hmanifest⟩
    · show Receipts manifest.files (s.db.rows run)
      rw [hrows]
      exact ⟨rfl, fun _ hmem => (nomatch hmem), fun _ hmem => (nomatch hmem)⟩
    · show 0 = (s.db.rows run).length
      rw [hrows]
      rfl
    · intro hclean
      cases hclean
    · intro hdetected
      cases hdetected
    · show ∀ row ∈ s.db.rows run, _
      rw [hrows]
      exact fun _ hmem => (nomatch hmem)
  · rw [Table.lookup_insert_eq, if_pos rfl] at htask
    obtain rfl := Option.some.inj htask
    refine ⟨⟨value, (hinsert run).trans (if_pos rfl), .refl _⟩, ⟨manifest, hmanifest, rfl⟩, ?_⟩
    show Task.Agrees _ (s.db.rows run)
    rw [hrows]
    exact ⟨rfl, rfl, rfl, rfl, rfl⟩

/-- The recovery closes the runs that were not complete as incomplete. -/
theorem Kept.restart (h : Kept s) (recovered : Bool)
    (hfits : recovered = true → ∀ run value, s.db.runs.lookup run = some value →
      value.state ≠ .completed → value.recovered.Fits run) : Kept (s.restart recovered) := by
  have hframe : Frame s (s.restart recovered) := by
    cases recovered <;> exact ⟨fun _ _ h => h, fun _ h => h, h.policyId⟩
  cases recovered with
  | false =>
    exact ⟨hframe.policyId, h.owned, fun run value hvalue => (h.runs run value hvalue).mono hframe rfl,
      fun run task htask => (nomatch htask)⟩
  | true =>
    have hlookup (run : Identity) := Table.lookup_mapRows s.db.runs
      (fun value => if value.state = .completed then value else value.recovered) run
    refine ⟨hframe.policyId, fun row hrow => ?_, fun run value hvalue => ?_,
      fun run task htask => (nomatch htask)⟩
    · obtain ⟨value, hvalue⟩ := h.owned row hrow
      exact ⟨_, (hlookup row.run).trans (by rw [hvalue]; rfl)⟩
    · have hmapped := (hlookup run).symm.trans hvalue
      obtain ⟨stored, hstored, rfl⟩ := Option.map_eq_some_iff.mp hmapped
      have hcovered := (h.runs run stored hstored).mono hframe rfl
      split
      · exact hcovered
      · next hstate =>
        exact hcovered.of_incomplete ⟨rfl, rfl, rfl, rfl⟩ hcovered.counted rfl
          (hfits rfl run stored hstored hstate)

theorem Kept.empty : Kept (State.empty : State D) where
  policyId _ := rfl
  owned _ hrow := (nomatch hrow)
  runs _ _ hvalue := (nomatch hvalue)
  tasks _ _ htask := (nomatch htask)

/-! ### Runs of the controller -/

/-- The records that an event saves when it happens and nothing fails. -/
def State.saves (s : State D) : Event D → List (Identity × Record)
  | .submit run dataset subject project request =>
    (s.db.datasets.lookup dataset).toList.map fun manifest =>
      (run, request.value subject project dataset manifest)
  | .start run true => (s.tasks.lookup run).toList.map fun task => (run, task.value.started)
  | .scanned run _ _ =>
    (s.tasks.lookup run).toList.map fun task => (run, task.value.counted task.number)
  | .close run now true _ =>
    (s.tasks.lookup run).toList.flatMap fun task =>
      match task.stage with
      | .closing cause => [(run, task.closed cause now)]
      | _ => []
  | .cancel run now true =>
    (s.db.runs.lookup run).toList.map fun value => (run, value.cancelled now)
  | .restart true =>
    (s.db.runs.rows.filter fun row => row.2.state ≠ .completed).map fun row =>
      (row.1, row.2.recovered)
  | _ => []

/-- What the events of a run have to meet. -/
structure Careful (s : State D) (event : Event D) : Prop where
  /-- A task saves its record in the `finally` only if no transaction of it failed when the record in
  memory had changed, or with a detection. -/
  whole : ∀ run now audited, event = .close run now true audited →
    ∀ task ∈ s.tasks.lookup run, task.torn = false
  /-- No record that is saved is too long. -/
  records : ∀ saved ∈ s.saves event, saved.2.Fits saved.1
  /-- No receipt that is stored is too long or says the number of another file. -/
  receipts : ∀ run receipt fault, event = .scanned run receipt fault → Stores fault →
    ∀ task ∈ s.tasks.lookup run, receipt.Fits task.number

/-- A careful event keeps the tables. -/
theorem Kept.step (h : Kept s) {event : Event D} (hcareful : Careful s event) :
    Kept (s.step event) := by
  -- An event that cannot happen changes nothing.
  have hgetD {next : Option (State D)} (hnext : ∀ s', next = some s' → Kept s') :
      Kept (next.getD s) := by
    cases hs : next with
    | none => exact h
    | some s' => exact hnext s' hs
  obtain ⟨hwhole, hrecords, hreceipts⟩ := hcareful
  cases event with
  | create identity dataset required => exact hgetD fun s' => h.create
  | submit run dataset subject project request =>
    refine hgetD fun s' hsubmit => h.submit hsubmit fun manifest hmanifest => ?_
    exact hrecords (run, _) (List.mem_map.mpr ⟨manifest, by simpa using hmanifest, rfl⟩)
  | start run saved =>
    refine hgetD fun s' hstart => h.start hstart fun hsaved task htask => ?_
    subst hsaved
    exact hrecords (run, _) (List.mem_map.mpr ⟨task, by simpa using htask, rfl⟩)
  | scanned run receipt fault =>
    refine hgetD fun s' hscanned => h.scanned hscanned fun hstores task htask => ⟨?_, ?_⟩
    · exact hreceipts run receipt fault rfl hstores task htask
    · exact hrecords (run, _) (List.mem_map.mpr ⟨task, by simpa using htask, rfl⟩)
  | raised run cause => exact hgetD fun s' => h.raised
  | finished run => exact hgetD fun s' => h.finished
  | close run now saved audited =>
    refine hgetD fun s' hclose => h.close hclose fun hsaved task htask => ?_
    subst hsaved
    refine ⟨hwhole run now audited rfl task htask, fun cause hstage => ?_⟩
    refine hrecords (run, _) (List.mem_flatMap.mpr ⟨task, by simpa using htask, ?_⟩)
    rw [hstage]
    exact List.mem_singleton_self _
  | cancel run now saved =>
    refine hgetD fun s' hcancel => h.cancel hcancel fun hsaved value hvalue => ?_
    subst hsaved
    exact hrecords (run, _) (List.mem_map.mpr ⟨value, by simpa using hvalue, rfl⟩)
  | restart recovered =>
    refine h.restart recovered fun hrecovered run value hvalue hstate => ?_
    subst hrecovered
    refine hrecords (run, _) (List.mem_map.mpr ⟨(run, value), List.mem_filter.mpr ⟨?_, ?_⟩, rfl⟩)
    · exact Table.mem_rows.mpr hvalue
    · exact decide_eq_true hstate
  | update dataset revision sensitive required quarantined => exact hgetD fun s' => h.update
  | exempt dataset revision exemption => exact hgetD fun s' => h.exempt

/-- What a stored run promises. -/
structure Consistent (s : State D) : Prop where
  counted : ∀ run value, s.db.runs.lookup run = some value →
    value.completedFiles = (s.db.rows run).length
  /-- Every file of the dataset has a receipt without a detection. -/
  clean : ∀ run value, s.db.runs.lookup run = some value → value.outcome = .noDetection →
    ∃ dataset, s.db.datasets.lookup value.datasetId = some dataset ∧
      ∀ index < dataset.files.length, ∃ row ∈ s.db.rows run,
        row.fileIndex = index ∧ row.receipt.outcome = .noDetection
  /-- A detection holds the dataset until the owner decides. -/
  held : ∀ run value, s.db.runs.lookup run = some value →
    (value.outcome = .detected ∨ ∃ row ∈ s.db.rows run, row.receipt.outcome = .detected) →
    s.Held value.datasetId
  run : ∀ run value, s.db.runs.lookup run = some value → value.state = .completed →
    s.db.validateRun run value = .ok ()
  file : ∀ row ∈ s.db.files, s.db.validateFile row = .ok ()
  validated : (∀ run value, s.db.runs.lookup run = some value → value.state = .completed) →
    s.db.validateRecords = .ok ()

/-- There are no more receipts than files. -/
theorem Receipts.length_le {files : List File} (h : Receipts files rows) :
    rows.length ≤ files.length := by
  cases hlast : rows.length with
  | zero => exact Nat.zero_le _
  | succ last =>
    -- The last receipt is of a file.
    have hmem : last ∈ rows.map Row.fileIndex := by
      rw [h.numbers, hlast]
      exact List.self_mem_range_succ
    obtain ⟨row, hrow, hindex⟩ := List.mem_map.mp hmem
    obtain ⟨file, hfile, -⟩ := h.bound row hrow
    rw [hindex] at hfile
    exact (List.getElem?_eq_some_iff.mp hfile).1

/-- A covered run is valid. -/
theorem Covered.validateRun {value : Record} (h : Covered s run value)
    (hcompleted : value.state = .completed) : s.db.validateRun run value = .ok () := by
  obtain ⟨dataset, hlookup, hproject, hdigest, htotal, hreceipts⟩ := h.dataset
  have hle := hreceipts.length_le
  rw [Database.validateRun, unit_bind_eq_ok, raiseIf_eq_ok, orRaise_bind_eq_ok]
  refine ⟨?_, dataset, ?_, ?_⟩
  · rintro (hlong | hstate)
    · exact hlong h.fits
    · exact hstate hcompleted
  · rw [hlookup, Option.filter_some, if_pos (decide_eq_true hproject)]
  · rw [unit_bind_eq_ok, raiseIf_eq_ok, raiseIf_eq_ok]
    refine ⟨not_not.mpr hdigest, ?_⟩
    rintro (htotal' | hcounted | hmore | ⟨hclean, hsome⟩)
    · exact htotal' htotal
    · exact hcounted h.counted
    · exact absurd hle (Nat.not_le.mpr hmore)
    · exact hsome ((h.clean hclean).1.trans htotal)

/-- So are its receipts. -/
theorem Covered.validateFile {value : Record} (hvalue : s.db.runs.lookup run = some value)
    (h : Covered s run value) {row : Row} (hrow : row ∈ s.db.rows run) :
    s.db.validateFile row = .ok () := by
  obtain ⟨dataset, hlookup, -, -, -, hreceipts⟩ := h.dataset
  obtain ⟨file, hfile, hsha, hbytes⟩ := hreceipts.bound row hrow
  have hrun : row.run = run := of_decide_eq_true (List.mem_filter.mp hrow).2
  rw [Database.validateFile, unit_bind_eq_ok, raiseIf_eq_ok, orRaise_bind_eq_ok]
  refine ⟨not_not.mpr (hreceipts.fits row hrow), value, by rw [hrun, hvalue], ?_⟩
  rw [orRaise_bind_eq_ok]
  refine ⟨dataset, hlookup, ?_⟩
  rw [orRaise_bind_eq_ok]
  refine ⟨file, hfile, ?_⟩
  rw [raiseIf_eq_ok]
  rintro (hbinding | ⟨hclean, hdirty⟩)
  · exact hbinding (by rw [hsha, hbytes])
  · exact hdirty ((h.clean hclean).2 row hrow)

/-- What is kept is consistent. -/
theorem Kept.consistent (h : Kept s) : Consistent s := by
  have hfile : ∀ row ∈ s.db.files, s.db.validateFile row = .ok () := by
    intro row hrow
    obtain ⟨value, hvalue⟩ := h.owned row hrow
    exact (h.runs row.run value hvalue).validateFile hvalue
      (List.mem_filter.mpr ⟨hrow, decide_eq_true rfl⟩)
  have hrun : ∀ run value, s.db.runs.lookup run = some value → value.state = .completed →
      s.db.validateRun run value = .ok () :=
    fun run value hvalue hcompleted => (h.runs run value hvalue).validateRun hcompleted
  refine ⟨fun run value hvalue => (h.runs run value hvalue).counted, ?_, ?_, hrun, hfile, ?_⟩
  · intro run value hvalue hclean
    have hcovered := h.runs run value hvalue
    obtain ⟨dataset, hlookup, -, -, htotal, hreceipts⟩ := hcovered.dataset
    obtain ⟨hall, hnoDetection⟩ := hcovered.clean hclean
    refine ⟨dataset, hlookup, fun index hindex => ?_⟩
    -- As many receipts as files, numbered from zero.
    have hmem : index ∈ (s.db.rows run).map Row.fileIndex := by
      rw [hreceipts.numbers, hall, htotal]
      exact List.mem_range.mpr hindex
    obtain ⟨row, hrow, hnumber⟩ := List.mem_map.mp hmem
    exact ⟨row, hrow, hnumber, hnoDetection row hrow⟩
  · intro run value hvalue hdetected
    have hcovered := h.runs run value hvalue
    obtain ⟨row, hrow, houtcome⟩ := hdetected.elim hcovered.detected id
    exact hcovered.held row hrow houtcome
  · intro hcompleted
    rw [Database.validateRecords, unit_bind_eq_ok, forM_eq_ok, forM_eq_ok]
    refine ⟨fun row hrow => ?_, hfile⟩
    have hlookup := Table.mem_rows.mp hrow
    exact hrun row.1 row.2 hlookup (hcompleted row.1 row.2 hlookup)

/-- In a run in which no task saves a torn record and no text is stored that the validation refuses,
every stored run is consistent. -/
theorem consistent_run (events : List (Event D))
    (hcareful : Along State.step Careful State.empty events) :
    Consistent (Ficc.run State.step State.empty events) := by
  have hkept : Kept (Ficc.run State.step State.empty events) :=
    hcareful.run_invariant (I := Kept) (fun _ _ h hstep => h.step hstep) Kept.empty
  exact hkept.consistent

namespace Example

def request : Request := ⟨8, some "clamav", .real (points "1760000000.5")⟩

/-- A result with the entries that every result has. -/
def receipt : Receipt where
  outcome := .noDetection
  sha256 := 4
  bytes := 5
  entries := [(points "coverage", .object []), (points "engine", .object []),
    (points "signatures", .object [])]
  distinct := by decide

/-- One file is scanned without a detection, and nothing fails. -/
def quietEvents : List (Event Digest) :=
  [.create 1 ⟨7, 2, [⟨3, 4, 5⟩]⟩ true, .submit 9 1 6 7 request, .start 9 true,
    .scanned 9 receipt none, .finished 9, .close 9 (.real (points "1760000009.25")) true true]

theorem consistent_run_quietEvents :
    Along State.step Careful State.empty quietEvents ∧
      Consistent (Ficc.run State.step State.empty quietEvents) ∧
      ((Ficc.run State.step State.empty quietEvents).db.runs.lookup 9).map Record.outcome =
        some .noDetection := by
  have hcareful : Along State.step Careful State.empty quietEvents := by
    refine ⟨⟨nofun, by decide +kernel, nofun⟩, ⟨nofun, by decide +kernel, nofun⟩,
      ⟨nofun, by decide +kernel, nofun⟩, ⟨nofun, by decide +kernel, ?_⟩,
      ⟨nofun, by decide +kernel, nofun⟩, ⟨?_, by decide +kernel, nofun⟩, trivial⟩
    · rintro run found fault heq -
      cases heq
      decide +kernel
    · rintro run now audited heq
      cases heq
      decide +kernel
  exact ⟨hcareful, consistent_run quietEvents hcareful, by decide +kernel⟩

/-- The record cannot be saved with the receipt of the only file, and then it is saved without. -/
def tornEvents : List (Event Digest) :=
  [.create 1 ⟨7, 2, [⟨3, 4, 5⟩]⟩ true, .submit 9 1 6 7 request, .start 9 true,
    .scanned 9 receipt (some .run), .close 9 (.real (points "1760000009.25")) true true]

/-- A result that says the number of another file. -/
def misnumbered : Receipt where
  outcome := .noDetection
  sha256 := 4
  bytes := 5
  entries := [(points "coverage", .object []), (points "engine", .object []),
    (points "signatures", .object []), (points "file_index", ofNatural 3)]
  distinct := by decide

/-- Nothing fails, but the result says the number of another file. -/
def misnumberedEvents : List (Event Digest) :=
  [.create 1 ⟨7, 2, [⟨3, 4, 5⟩]⟩ true, .submit 9 1 6 7 request, .start 9 true,
    .scanned 9 misnumbered none, .finished 9, .close 9 (.real (points "1760000009.25")) true true]

/-- The record counts a file that has no receipt, or the validation refuses a receipt. -/
theorem not_consistent_tornEvents :
    ¬Consistent (Ficc.run State.step State.empty tornEvents) ∧
      ¬Consistent (Ficc.run State.step State.empty misnumberedEvents) := by
  constructor
  · intro h
    have hstored : ((Ficc.run State.step State.empty tornEvents).db.runs.lookup 9).map
        Record.completedFiles = some 1 := by decide +kernel
    have hrows : ((Ficc.run State.step State.empty tornEvents).db.rows 9).length = 0 := by
      decide +kernel
    obtain ⟨value, hvalue, hone⟩ := Option.map_eq_some_iff.mp hstored
    have hcounted := h.counted 9 value hvalue
    rw [hone, hrows] at hcounted
    cases hcounted
  · intro h
    have hrefused : ∃ row ∈ (Ficc.run State.step State.empty misnumberedEvents).db.files,
        ¬row.receipt.Fits row.fileIndex := by decide +kernel
    obtain ⟨row, hrow, hlong⟩ := hrefused
    have hvalid := h.file row hrow
    rw [Database.validateFile, unit_bind_eq_ok, raiseIf_eq_ok] at hvalid
    exact hvalid.1 hlong

end Example

end Ficc.Datasets.Inspections
