import Ficc.Editor.Retention

/-!
# What a save leaves behind

A save that has journaled its record goes through the phases of `Sound`, one after the other, and is
interrupted in one of them. It has to have written its draft by then: `Stores` says that the system
calls up to the last byte of the draft succeed.
-/

namespace Ficc.Editor

open Execution (Digest)
open Durable

/-- The writes cover the data. -/
def completes (data : Bytes) : ℕ → List Write → Bool
  | offset, writes =>
    if data.length ≤ offset then true else
    match writes with
    | .wrote count :: rest => count ≠ 0 && completes data (offset + count) rest
    | _ => false

/-- A save that journals its record is not interrupted before its draft is written. -/
structure Environment.Stores (env : Environment) (data : Bytes) : Prop where
  points : ∀ point ∈ [.journal 0 true, .parent, .mkdir, .staged, .folder, .create .draft],
    env.fault point = none
  draft : completes data 0 (env.writes .draft) = true

instance (env : Environment) (data : Bytes) : Decidable (env.Stores data) :=
  decidable_of_iff (_ ∧ _) ⟨fun h => ⟨h.1, h.2⟩, fun h => ⟨h.points, h.draft⟩⟩

section Copies

variable {env : Environment} {record : Record} {data : Bytes} {s : Disk}

/-- What every write keeps holds wherever the loop ends. -/
theorem spec_writeLoop {put : Bytes → Stage → Stage} {I : Disk → Prop}
    (hput : ∀ bytes t, I t → I (onStage (put bytes) t)) {offset : ℕ} {writes : List Write}
    (h : I s) : Spec (writeLoop put data offset writes) (fun _ => I) I s := by
  induction writes generalizing offset s with
  | nil =>
    unfold writeLoop
    exact .ite (fun _ => .pure h) fun _ => .halt h
  | cons write rest ih =>
    unfold writeLoop
    refine .ite (fun _ => .pure h) fun _ => ?_
    cases write with
    | wrote count => exact .refuseIf h fun _ => .perform (ih (hput _ _ h))
    | cancelled => exact .halt h
    | failed => exact .halt h
    | crashed => exact .halt h

/-- A loop whose writes cover the data returns. -/
theorem spec_writeLoop_of_completes {put : Bytes → Stage → Stage} {I halted : Disk → Prop}
    (hput : ∀ bytes t, I t → I (onStage (put bytes) t)) {offset : ℕ} {writes : List Write}
    (hcompletes : completes data offset writes = true) (h : I s) :
    Spec (writeLoop put data offset writes) (fun _ => I) halted s := by
  induction writes generalizing offset s with
  | nil =>
    unfold completes at hcompletes
    unfold writeLoop
    refine .ite (fun _ => .pure h) fun hmore => ?_
    rw [if_neg hmore] at hcompletes
    cases hcompletes
  | cons write rest ih =>
    unfold completes at hcompletes
    unfold writeLoop
    refine .ite (fun _ => .pure h) fun hmore => ?_
    rw [if_neg hmore] at hcompletes
    cases write with
    | wrote count =>
      simp only [Bool.and_eq_true, decide_eq_true_eq] at hcompletes
      exact .refuseIf_of_not hcompletes.1 (.perform (ih hcompletes.2 (hput _ _ h)))
    | cancelled => cases hcompletes
    | failed => cases hcompletes
    | crashed => cases hcompletes

theorem spec_checkedAt {entry : FileIdentity} {R : Unit → Disk → Prop} {halted : Disk → Prop}
    (hentry : s.destination.identity = entry) (h : R () s) :
    Spec (checkedAt entry) R halted s := by
  refine .disk ?_
  refine wp_refuseIf.mpr ⟨fun hne => absurd hentry hne, fun _ => h⟩

/-- The draft is written, and only the last system call can be interrupted. -/
theorem spec_stageDraft (hstores : env.Stores data) (hentry : s.destination.identity = record.entry)
    (hstage : s.stage = none) :
    Spec (stageDraft env record data)
      (fun _ t => t = { s with stage := some ⟨some data, none⟩ })
      (fun t => t = { s with stage := some ⟨some data, none⟩ }) s := by
  have hpoints := hstores.points
  simp only [List.mem_cons, List.not_mem_nil, or_false, forall_eq_or_imp, forall_eq] at hpoints
  obtain ⟨-, hparent, hmkdir, hstaged, hfolder, hcreate⟩ := hpoints
  refine .pointRaising_of_none hparent (.bind (spec_checkedAt (R := fun _ t => t = s) hentry rfl) ?_)
  rintro - t rfl
  refine .pointRaising_of_none hmkdir (.disk (.refuseIf_of_not (by simp [hstage]) (.perform ?_)))
  refine .pointRaising_of_none hstaged (.pointRaising_of_none hfolder ?_)
  -- While the draft is written, the stage holds some of it.
  let writing : Disk → Prop := fun t' => ∃ bytes, t' = { t with stage := some ⟨some bytes, none⟩ }
  have hput : ∀ bytes t', writing t' →
      writing (onStage (putCopy env record 384 bytes .draft) t') := by
    rintro bytes - ⟨old, rfl⟩
    exact ⟨bytes, rfl⟩
  refine .pointRaising_of_none hcreate (.perform (.bind (spec_writeLoop_of_completes hput
    hstores.draft ⟨[], rfl⟩) ?_))
  rintro - t' ⟨bytes, rfl⟩
  exact .perform (.pointRaising_last rfl rfl)

/-- The replacement that `write_file` makes. -/
def newFile (env : Environment) (record : Record) (data : Bytes) : File where
  ino := record.entry.ino + 1 + env.inode
  data := data
  mtime := env.now
  ctime := env.now
  mode := record.mode
  uid := record.uid
  gid := record.gid
  editable := true

/-- The replacement is written. The draft stays, however far it gets. -/
theorem spec_stageReplacement {tools : Tools}
    (hentry : s.destination.identity = record.entry) (hstage : s.stage = some ⟨some data, none⟩) :
    Spec (stageReplacement tools env record data)
      (fun _ t => t = { s with stage := some ⟨some data, some (newFile env record data)⟩ })
      (fun t => ∃ replacement, t = { s with stage := some ⟨some data, replacement⟩ }) s := by
  let writing : Disk → Prop := fun t => ∃ replacement,
    t = { s with stage := some ⟨some data, replacement⟩ }
  have hfirst : writing s := ⟨none, by rw [← hstage]⟩
  have hput : ∀ mode bytes t, writing t →
      writing (onStage (putCopy env record mode bytes .replacement) t) := by
    rintro mode bytes - ⟨replacement, rfl⟩
    exact ⟨_, rfl⟩
  have hwritten : Spec (writeFile env record .replacement record.mode data)
      (fun _ t => t = { s with stage := some ⟨some data, some (newFile env record data)⟩ })
      writing s := by
    refine .pointRaising hfirst (.perform (.bind (spec_writeLoop (hput 384) (hput _ _ _ hfirst)) ?_))
    rintro - t ⟨replacement, rfl⟩
    exact .perform (.pointRaising_last rfl ⟨_, rfl⟩)
  refine .bind hwritten ?_
  rintro - t rfl
  set full : Disk := { s with stage := some ⟨some data, some (newFile env record data)⟩ }
  have hfull : writing full := ⟨_, rfl⟩
  refine .pointRaising hfull (.pointRaising hfull (.bind (spec_checkedAt (R := fun _ t => t = full)
    hentry rfl) ?_))
  rintro - t rfl
  exact .disk (.checked hfull fun _ _ => .refuseIf hfull fun _ => .pointRaising_last rfl hfull)

end Copies

section Saves

variable {tools : Tools} {original : File} {env : Environment} {record : Record} {base disk : Disk}

/-- The handler writes the record that is in memory. -/
theorem spec_handle (hstate : record.state ≠ .preparing) (hresolved : record.resolved = false)
    (hleft : Left tools original base disk)
    (hsound : Sound tools original { disk with record := some record } record) (halt : Halt) :
    Spec (handle env record halt)
      (fun found t => t.record = some found ∧ Left tools original base t)
      (Left tools original base) disk := by
  have hwritten : Left tools original base { disk with record := some record } :=
    .of_sound hsound rfl (by simp [hresolved])
  cases halt with
  | crashed => exact .halt hleft
  | raised error =>
    refine .bind (M := fun found t => found = record ∧ t = disk) ?_ ?_
    · rw [markFailed, if_neg hstate]
      exact .pure ⟨rfl, rfl⟩
    · rintro found t ⟨rfl, rfl⟩
      exact .save hleft hwritten (.pure ⟨rfl, hwritten⟩)

/-- The handler marks a save that was not published as failed. -/
theorem spec_handle_preparing (hstate : record.state = .preparing)
    (hretained : record.retained = true) (hrecord : disk.record = some record)
    (hsound : Sound tools original disk record) (hresolved : record.resolved = false)
    (hleft : Left tools original base disk) (halt : Halt) :
    Spec (handle env record halt)
      (fun found t => t.record = some found ∧ Left tools original base t)
      (Left tools original base) disk := by
  cases halt with
  | crashed => exact .halt hleft
  | raised error =>
    obtain ⟨replacement, hstage, hdestination, hexchanges⟩ : ∃ replacement,
        disk.stage = some ⟨some disk.submitted, replacement⟩ ∧ disk.destination = original ∧
          disk.exchanges = 0 := by
      cases hsound.phase with
      | before hphase hdestination hexchanges hdraft =>
        obtain ⟨replacement, hstage⟩ := hdraft hresolved
        exact ⟨replacement, hstage, hdestination, hexchanges⟩
      | announced new hphase => simp [hstate] at hphase
      | published hphase => simp [hstate] at hphase
    set failed : Record := { record with
      state := .failed
      message := messageOf error
      retained := record.retained && disk.stage.isSome } with hfailed
    have hrecorded := hsound.recorded
    have hwritten : Left tools original base { disk with record := some failed } := by
      have hsound' : Sound tools original { disk with record := some failed } failed := by
        refine ⟨⟨hrecorded.entry, hrecorded.owner, hrecorded.expected, hrecorded.sha256,
          hrecorded.readable, hrecorded.editable, hrecorded.text⟩, .before (.inl rfl) hdestination
          hexchanges fun _ => ⟨replacement, hstage⟩, ?_⟩
        simp [hfailed, hretained, hstage]
      exact .of_sound hsound' rfl (by simp [hfailed, hresolved])
    refine .bind (M := fun found t => found = failed ∧ t = disk) ?_ ?_
    · rw [markFailed, if_pos hstate]
      exact .pointRaising hleft (.disk (.pure ⟨rfl, rfl⟩))
    · rintro found t ⟨rfl, rfl⟩
      exact .save hleft hwritten (.pure ⟨rfl, hwritten⟩)

/-- The exchange, from a stage that holds both copies. Wherever it is interrupted, the record that
announces it is sound. -/
theorem spec_publish {data : Bytes} {new : File} (hleft : Left tools original base disk)
    (hrecorded : Recorded tools original disk record) (hstate : record.state = .unknown)
    (hresolved : record.resolved = false) (hretained : record.retained = true)
    (hdestination : disk.destination = original) (hexchanges : disk.exchanges = 0)
    (hstage : disk.stage = some ⟨some data, some new⟩) (hsubmitted : disk.submitted = data)
    (hdata : new.data = data) (hnew : Announced original record new) :
    Spec (publish env record)
      (fun _ t => t.record = some record ∧ Sound tools original t record)
      (fun t => Left tools original base t ∧
        Sound tools original { t with record := some record } record) disk := by
  subst hsubmitted
  have hcopied (t : Disk) (ht : t.submitted = disk.submitted) :
      Recorded tools original t record :=
    ⟨hrecorded.entry, hrecorded.owner, hrecorded.expected, ht ▸ hrecorded.sha256,
      hrecorded.readable, hrecorded.editable, ht ▸ hrecorded.text⟩
  have hannounced : Sound tools original { disk with record := some record } record :=
    ⟨hcopied _ rfl, .announced new hstate hresolved hdestination hexchanges hstage hdata hnew,
      by simp [hretained]⟩
  have hafter (t : Disk) (hrecord : t.record = some record)
      (hsound : Sound tools original t record) : Left tools original base t ∧
        Sound tools original { t with record := some record } record :=
    ⟨.of_sound hsound hrecord (by simp [hresolved]), hsound.of_eq rfl rfl rfl rfl⟩
  -- The two files have changed places, and only the change times are new.
  have hexchanged : exchange env { disk with record := some record } = { disk with
      destination := { new with ctime := env.now }
      stage := some ⟨some disk.submitted, some { original with ctime := env.now }⟩
      record := some record
      exchanges := disk.exchanges + 1 } := by
    simp [exchange, hstage, hdestination]
  have hpublished : Sound tools original
      (exchange env { disk with record := some record }) record := by
    rw [hexchanged]
    refine ⟨hcopied _ rfl, .published (.inr ⟨hstate, hresolved⟩) hdata ?_ hnew
      fun _ => ⟨env.now, rfl⟩, by simp [hretained]⟩
    rw [hexchanges]
  have hrecord : (exchange env { disk with record := some record }).record = some record := by
    rw [hexchanged]
  refine .save ⟨hleft, hannounced⟩ (hafter _ rfl hannounced) ?_
  refine .pointRaising (hafter _ rfl hannounced) (.perform ?_)
  exact .pointRaising_last ⟨hrecord, hpublished⟩ (hafter _ hrecord hpublished)

/-- A record on the disk is reported. -/
theorem spec_reported {p : Program Record}
    (h : Spec p (fun found t => t.record = some found ∧ Left tools original base t)
      (Left tools original base) disk) :
    Spec p (fun found t => Reported original t found ∧ Left tools original base t)
      (Left tools original base) disk :=
  h.mono (fun _ _ hend => hend.imp_left .inl) fun _ => id

/-- The outcome is journaled, or the handler journals it. -/
theorem spec_concludeSave (hrecord : disk.record = some record)
    (h : Sound tools original disk record) (hresolved : record.resolved = false)
    (hstate : record.state = .unknown) :
    Spec (concludeSave tools env record)
      (fun found t => Reported original t found ∧ Left tools original base t)
      (Left tools original base) disk := by
  have hleft : Left tools original base disk := .of_sound h hrecord (by simp [hresolved])
  refine .disk ?_
  split
  · exact .pure ⟨.inl hrecord, hleft⟩
  · next found hfound =>
    obtain ⟨hsound, hkept, hretained⟩ := h.inspection hfound
    rw [hresolved] at hkept
    have hwritten : Left tools original base { disk with record := some found } :=
      .of_sound hsound rfl (by simp [hkept])
    have hne : found.state ≠ .preparing := by
      cases h.phase with
      | before hphase => simp [hstate] at hphase
      | announced new _ _ hdestination _ hstage hdata hnew =>
        rw [inspection_of_announced h.recorded hstate hdestination hstage hdata hnew hfound]
        simp
      | published _ hdata _ hnew hstage =>
        obtain ⟨ctime, hfiles⟩ := hstage hresolved
        rw [inspection_of_published h.recorded hstate hdata hnew hfiles hfound]
        simp
    refine .attempt (Q := fun _ t => Reported original t found ∧ Left tools original base t)
      (F := fun t => Left tools original base t ∧
        Sound tools original { t with record := some found } found)
      (.saveFound ⟨hleft, hsound⟩ ⟨hwritten, hsound⟩ ⟨.inl rfl, hwritten⟩ fun _ hfailed =>
        ⟨.inr ⟨hfailed, hsound.unchanged hfailed, record, hrecord, hretained⟩, hleft⟩)
      (fun _ _ hend => .pure hend) ?_
    rintro halt t ⟨ht, hsound'⟩
    exact spec_reported (spec_handle hne hkept ht hsound' halt)

theorem spec_publishSave {data : Bytes} {new : File} (hleft : Left tools original base disk)
    (hrecorded : Recorded tools original disk record) (hstate : record.state = .unknown)
    (hresolved : record.resolved = false) (hretained : record.retained = true)
    (hdestination : disk.destination = original) (hexchanges : disk.exchanges = 0)
    (hstage : disk.stage = some ⟨some data, some new⟩) (hsubmitted : disk.submitted = data)
    (hdata : new.data = data) (hnew : Announced original record new) :
    Spec (publishSave tools env record)
      (fun found t => Reported original t found ∧ Left tools original base t)
      (Left tools original base) disk := by
  refine .attempt (spec_publish hleft hrecorded hstate hresolved hretained hdestination hexchanges
    hstage hsubmitted hdata hnew) ?_ ?_
  · rintro - t ⟨hrecord, hsound⟩
    exact spec_concludeSave hrecord hsound hresolved hstate
  · rintro halt t ⟨ht, hsound⟩
    exact spec_reported (spec_handle (by simp [hstate]) hresolved ht hsound halt)

/-- The `try` block of a save whose record has just been journaled. -/
theorem spec_attemptSave {data : Bytes} (hstores : env.Stores data)
    (hrecord : disk.record = some record) (hrecorded : Recorded tools original disk record)
    (hstate : record.state = .preparing) (hresolved : record.resolved = false)
    (hretained : record.retained = true) (hdestination : disk.destination = original)
    (hexchanges : disk.exchanges = 0) (hstage : disk.stage = none)
    (hsubmitted : disk.submitted = data) :
    Spec (attemptSave tools env record data)
      (fun found t => Reported original t found ∧ Left tools original base t)
      (Left tools original base) disk := by
  subst hsubmitted
  have hentry : disk.destination.identity = record.entry := by
    rw [hdestination, hrecorded.entry]
  -- While the exchange is not announced the file is the original and the draft is there.
  have hpreparing (replacement : Option File) :
      Sound tools original { disk with stage := some ⟨some disk.submitted, replacement⟩ } record :=
    ⟨⟨hrecorded.entry, hrecorded.owner, hrecorded.expected, hrecorded.sha256, hrecorded.readable,
      hrecorded.editable, hrecorded.text⟩, .before (.inr ⟨hstate, hresolved⟩) hdestination
      hexchanges fun _ => ⟨replacement, rfl⟩, by simp [hretained]⟩
  have hleft (replacement : Option File) : Left tools original base
      { disk with stage := some ⟨some disk.submitted, replacement⟩ } :=
    .of_sound (hpreparing replacement) hrecord (by simp [hresolved])
  refine .attempt (Q := fun _ t => t = { disk with
      stage := some ⟨some disk.submitted, some (newFile env record disk.submitted)⟩ })
    (F := fun t => ∃ replacement, t = { disk with
      stage := some ⟨some disk.submitted, replacement⟩ }) ?_ ?_ ?_
  · refine .bind ((spec_stageDraft hstores hentry hstage).mono (fun _ _ h => h)
      fun t ht => ⟨none, ht⟩) ?_
    rintro - t rfl
    exact spec_stageReplacement hentry rfl
  · rintro - t rfl
    refine spec_publishSave (hleft _) ?_ rfl hresolved hretained hdestination hexchanges rfl rfl
      rfl ⟨_, rfl, rfl, ?_⟩
    · exact ⟨hrecorded.entry, hrecorded.owner, hrecorded.expected, hrecorded.sha256,
        hrecorded.readable, hrecorded.editable, hrecorded.text⟩
    · rw [newFile, hrecorded.entry]
      simp only [File.identity]
      omega
  · rintro halt t ⟨replacement, rfl⟩
    have hsame : { disk with stage := some ⟨some disk.submitted, replacement⟩ }.record =
        some record := hrecord
    exact spec_reported (spec_handle_preparing hstate hretained hsame (hpreparing replacement)
      hresolved (hleft replacement) halt)

theorem spec_saveNew {request : SaveRequest} (htext : tools.textBytes request.data = .ok ())
    (hstores : env.Stores request.data) (hrecord : disk.record = none)
    (h : Inv tools original disk) :
    Spec (saveNew tools env request)
      (fun found t => Reported original t found ∧ Left tools original disk t)
      (Left tools original disk) disk := by
  have hleft := Left.refl h
  rw [Inv, hrecord] at h
  obtain ⟨hdestination, hstage, hexchanges⟩ := h
  have hpoint : env.fault (.journal 0 true) = none := hstores.points _ (by simp)
  refine .bind (M := fun file t => file = original ∧ t = disk ∧
    Recorded tools original { disk with submitted := request.data }
      (newRecord tools request original)) ?_ ?_
  · -- What is checked of the file is what the record says about it.
    refine .refuseIf hleft fun _ => .pointRaising hleft (.bind (M := fun _ t =>
      t = disk ∧ disk.destination.identity = request.entry) ?_ ?_)
    · refine .disk (wp_refuseIf.mpr ⟨fun _ => hleft, fun hsame => ⟨rfl, ?_⟩⟩)
      simpa using hsame
    · rintro - t ⟨rfl, hentry⟩
      refine .disk (.checked hleft fun data hdata => .refuseIf hleft fun heditable =>
        .refuseIf hleft fun hexpected => .checked hleft fun _ _ => .pure ?_)
      rw [hdestination] at hdata heditable hentry
      have hread : data = original.data := by
        simp only [Tools.readFile, bind_eq_ok, pure, Except.pure, Except.ok.injEq] at hdata
        obtain ⟨-, -, -, -, rfl⟩ := hdata
        rfl
      subst hread
      exact ⟨hdestination, rfl, hentry.symm, ⟨rfl, rfl, rfl⟩, (not_not.mp hexpected).symm, rfl,
        hdata, by simpa using heditable, htext⟩
  · rintro file t ⟨rfl, rfl, hrecorded⟩
    refine .pointRaising hleft (.perform (.pointRaising_of_none hpoint ?_))
    exact spec_attemptSave hstores rfl ⟨hrecorded.entry, hrecorded.owner, hrecorded.expected,
      hrecorded.sha256, hrecorded.readable, hrecorded.editable, hrecorded.text⟩ rfl rfl rfl
      hdestination hexchanges hstage rfl

theorem spec_commit {request : SaveRequest} (hstores : disk.record = none → env.Stores request.data)
    (h : Inv tools original disk) :
    Spec (commit tools env request)
      (fun found t => Reported original t found ∧ Left tools original disk t)
      (Left tools original disk) disk := by
  have hleft := Left.refl h
  refine .checked hleft fun _ htext => .disk ?_
  split
  · next previous hrecord =>
    exact .refuseIf hleft fun _ => spec_inspectResult hrecord (h.sound hrecord)
  · next hrecord => exact spec_saveNew htext (hstores hrecord) hrecord h

end Saves

/-! ### Requests -/

/-- What a request needs for the guarantees: a save that is new writes its draft. -/
def Request.Stores (env : Environment) (disk : Disk) : Request → Prop
  | .save request => disk.record = none → env.Stores request.data
  | _ => True

/-- What a request resolves: an edit with a known outcome, when the request is a confirmed
cleanup. -/
def Request.Resolves (disk : Disk) : Request → Prop
  | .cleanup _ confirm _ => confirm = true ∧
      ∃ record, disk.record = some record ∧ record.state.Settled
  | _ => False

/-- What every request does to the disk, and what it replies. -/
structure Served (tools : Tools) (original : File) (request : Request) (disk disk' : Disk) :
    Prop where
  inv : Inv tools original disk'
  resolved : ∀ record', disk'.record = some record' → record'.resolved = true →
    (∃ record, disk.record = some record ∧ record.resolved = true) ∨ request.Resolves disk

theorem Left.served {tools : Tools} {original : File} {disk disk' : Disk}
    (h : Left tools original disk disk') (request : Request) :
    Served tools original request disk disk' :=
  ⟨h.inv, fun record' hrecord' hresolved => .inl (h.resolved record' hrecord' hresolved)⟩

theorem spec_dispatch {tools : Tools} {original : File} {env : Environment} {disk : Disk}
    (request : Request) (hstores : request.Stores env disk) (h : Inv tools original disk) :
    Spec (dispatch tools env request)
      (fun reply t => Replies original t reply ∧ Served tools original request disk t)
      (Served tools original request disk) disk := by
  have hleft := Left.refl h
  have hreplies {found : Record} {t : Disk} (hreported : Reported original t found) :
      Replies original t (some found.receipt) := by
    rintro - ⟨⟩
    exact ⟨found, hreported, rfl⟩
  have hmissing {f : Record → Program (Option Receipt)}
      (hnext : ∀ record, disk.record = some record → Spec (f record)
        (fun reply t => Replies original t reply ∧ Served tools original request disk t)
        (Served tools original request disk) disk) :
      Spec (journaled >>= f) (fun reply t => Replies original t reply ∧ Served tools original request disk t)
        (Served tools original request disk) disk := by
    refine .bind (M := fun record t => t = disk ∧ disk.record = some record) ?_ ?_
    · exact .disk (wp_demand.mpr ⟨fun _ => hleft.served request, fun _ hfound => ⟨rfl, hfound⟩⟩)
    · rintro record t ⟨rfl, hrecord⟩
      exact hnext record hrecord
  cases request with
  | save request =>
    refine .bind ((spec_commit hstores h).mono (fun _ _ hend => hend)
      fun t ht => ht.served (.save request)) ?_
    rintro found t ⟨hrecord, ht⟩
    exact .pure ⟨hreplies hrecord, ht.served _⟩
  | status =>
    refine hmissing fun record hrecord => .bind ((spec_inspectResult hrecord
      (h.sound hrecord)).mono (fun _ _ hend => hend) fun t ht => ht.served .status) ?_
    rintro found t ⟨hfound, ht⟩
    exact .pure ⟨hreplies hfound, ht.served _⟩
  | recovery copy =>
    refine hmissing fun record _ => .bind (spec_recovery env copy (hleft.served _)) ?_
    rintro data t rfl
    exact .pure ⟨by rintro - ⟨⟩, hleft.served _⟩
  | cleanup readOnly confirm recovered =>
    refine hmissing fun record hrecord => ?_
    have hserved {t : Disk} (hinv : Inv tools original t)
        (hend : t = disk ∨ confirm = true ∧ record.state.Settled) :
        Served tools original (.cleanup readOnly confirm recovered) disk t := by
      refine ⟨hinv, fun record' hrecord' hresolved => ?_⟩
      rcases hend with rfl | hsettled
      · exact .inl ⟨record', hrecord', hresolved⟩
      · exact .inr ⟨hsettled.1, record, hrecord, hsettled.2⟩
    refine .bind ((spec_cleanup hrecord (h.sound hrecord)).mono (fun _ _ hend => hend)
      fun t ht => hserved ht.1 ht.2) ?_
    rintro found t ⟨hfound, hinv, hend⟩
    exact .pure ⟨hreplies (.inl hfound), hserved hinv hend⟩

end Ficc.Editor
