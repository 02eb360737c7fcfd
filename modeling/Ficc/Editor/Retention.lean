import Ficc.Editor.Save

/-!
# Both copies are kept

A save that has written its draft keeps both texts, wherever it is interrupted: the original in the
file or in the stage, and the draft in the stage. `Sound` is the invariant over the three files and
the record. Its cases are the phases of an edit: before the exchange was announced, with the
exchange announced and not done, and with the exchange done.

`Spec` is the form in which programs are specified here: what holds when they return, and what holds
when they do not, whatever the reason.
-/

namespace Ficc.Editor

open Execution (Digest)
open Durable

/-! ### Specifications -/

section Specifications

variable {α β : Type}

/-- The program, started on the disk, ends with `ok` when it returns and with `halted` when it
raises or crashes. -/
def Spec (p : Program α) (ok : α → Disk → Prop) (halted : Disk → Prop) (disk : Disk) : Prop :=
  wp p ok (fun _ => halted) (fun _ => True) disk

namespace Spec

variable {p : Program α} {Q : α → Disk → Prop} {halted : Disk → Prop} {s : Disk}

theorem pure {a : α} (h : Q a s) : Spec (pure a) Q halted s := wp_pure.mpr h

theorem bind {f : α → Program β} {M : α → Disk → Prop} {Q : β → Disk → Prop}
    (h : Spec p M halted s) (hnext : ∀ a t, M a t → Spec (f a) Q halted t) :
    Spec (p >>= f) Q halted s :=
  wp_seq h hnext

theorem mono {Q' : α → Disk → Prop} {halted' : Disk → Prop} (h : Spec p Q halted s)
    (hok : ∀ a t, Q a t → Q' a t) (hhalted : ∀ t, halted t → halted' t) :
    Spec p Q' halted' s :=
  wp_mono h hok (fun _ => hhalted) fun _ => id

theorem halt {halt : Halt} (h : halted s) : Spec (check (.error halt)) Q halted s :=
  wp_check.mpr ⟨fun _ herror => (nomatch herror), fun _ _ => h⟩

theorem ite {c : Prop} [Decidable c] {q : Program α} (hp : c → Spec p Q halted s)
    (hq : ¬c → Spec q Q halted s) : Spec (if c then p else q) Q halted s :=
  wp_ite.mpr ⟨hp, hq⟩

/-! The other rules are for a step that is followed by the rest of a program. -/

variable {R : β → Disk → Prop}

theorem disk {f : Disk → Program β} (hnext : Spec (f s) R halted s) :
    Spec (Durable.disk >>= f) R halted s := by
  rw [Spec, wp_bind, wp_disk]
  exact hnext

theorem perform {g : Disk → Disk} {f : Unit → Program β} (hnext : Spec (f ()) R halted (g s)) :
    Spec (Durable.perform g >>= f) R halted s := by
  rw [Spec, wp_bind, wp_perform]
  exact ⟨trivial, hnext⟩

theorem checked {x : Except Error α} {f : α → Program β} (h : halted s)
    (hnext : ∀ a, x = .ok a → Spec (f a) R halted s) : Spec (checked x >>= f) R halted s := by
  rw [Spec, wp_bind]
  refine wp_check.mpr ⟨fun a ha => hnext a ?_, fun _ _ => h⟩
  cases x with
  | ok b => exact congrArg Except.ok (Except.ok.inj ha)
  | error e => cases ha

theorem refuseIf {c : Prop} [Decidable c] {halt : Halt} {f : Unit → Program β} (h : halted s)
    (hnext : ¬c → Spec (f ()) R halted s) : Spec (Durable.refuseIf c halt >>= f) R halted s := by
  rw [Spec, wp_bind, wp_refuseIf]
  exact ⟨fun _ => h, hnext⟩

/-- A check that does not refuse. -/
theorem refuseIf_of_not {c : Prop} [Decidable c] {halt : Halt} {f : Unit → Program β} (hc : ¬c)
    (hnext : Spec (f ()) R halted s) : Spec (Durable.refuseIf c halt >>= f) R halted s := by
  rw [Spec, wp_bind, wp_refuseIf]
  exact ⟨fun h => absurd h hc, fun _ => hnext⟩

theorem demand {o : Option α} {halt : Halt} {f : α → Program β} (h : halted s)
    (hnext : ∀ a, o = some a → Spec (f a) R halted s) :
    Spec (Durable.demand o halt >>= f) R halted s := by
  rw [Spec, wp_bind, wp_demand]
  exact ⟨fun _ => h, hnext⟩

/-- A handler starts where the program ended. -/
theorem attempt {f : Except Halt α → Program β} {F : Disk → Prop} (h : Spec p Q F s)
    (hok : ∀ a t, Q a t → Spec (f (.ok a)) R halted t)
    (hfailed : ∀ halt t, F t → Spec (f (.error halt)) R halted t) :
    Spec (Durable.attempt p >>= f) R halted s := by
  rw [Spec, wp_bind, wp_attempt]
  exact wp_mono h hok hfailed fun _ => id

variable {env : Environment} {f : Unit → Program β}

/-- The last step of a program can be interrupted. -/
theorem pointRaising_last {point : Point} {error : Error} {Q : Unit → Disk → Prop} (hok : Q () s)
    (h : halted s) : Spec (env.pointRaising point error) Q halted s := by
  unfold Environment.pointRaising
  split
  · exact .pure hok
  · exact .halt h
  · exact .halt h

theorem pointRaising {point : Point} {error : Error} (h : halted s)
    (hnext : Spec (f ()) R halted s) : Spec (env.pointRaising point error >>= f) R halted s := by
  refine .bind (.pointRaising_last (Q := fun _ t => t = s) rfl h) ?_
  rintro - t rfl
  exact hnext

/-- A point at which nothing happens. -/
theorem pointRaising_of_none {point : Point} {error : Error} (hnone : env.fault point = none)
    (hnext : Spec (f ()) R halted s) : Spec (env.pointRaising point error >>= f) R halted s := by
  rw [Environment.pointRaising, hnone]
  exact .bind (.pure (Q := fun _ t => t = s) rfl) (by rintro - t rfl; exact hnext)

/-- The record is replaced or not, with an error or without. -/
theorem save_last {number : ℕ} {record : Record} {Q : Unit → Disk → Prop} (hbefore : halted s)
    (hafter : halted { s with record := some record }) (hok : Q () { s with record := some record }) :
    Spec (env.save number record) Q halted s :=
  .pointRaising hbefore (.perform (.pointRaising_last hok hafter))

theorem save {number : ℕ} {record : Record} (hbefore : halted s)
    (hafter : halted { s with record := some record })
    (hnext : Spec (f ()) R halted { s with record := some record }) :
    Spec (env.save number record >>= f) R halted s := by
  refine .bind (.save_last (Q := fun _ t => t = { s with record := some record }) hbefore hafter
    rfl) ?_
  rintro - t rfl
  exact hnext

/-- Only a crash interrupts a program whose errors are passed over. -/
theorem passOver {p : Program Unit} {Q : Unit → Disk → Prop}
    (h : wp p Q (fun halt t => if halt = .crashed then halted t else Q () t) (fun _ => True) s) :
    Spec (passOver p) Q halted s := by
  refine wp_bind.mpr (wp_attempt.mpr (wp_mono h (fun _ t ht => ?_) (fun halt t ht => ?_) fun _ => id))
  · exact wp_pure.mpr ht
  · cases halt with
    | crashed => exact Spec.halt (by simpa using ht)
    | raised error => exact wp_pure.mpr (by simpa using ht)

/-- What an inspection has found is saved, or an error is passed over. -/
theorem saveFound {record found : Record} {Q : Unit → Disk → Prop} (hbefore : halted s)
    (hafter : halted { s with record := some found }) (hok : Q () { s with record := some found })
    (hpassed : record.state = .unknown → found.state = .failed → Q () s) :
    Spec (saveFound env record found) Q halted s := by
  refine .ite (fun hfailed => .passOver ?_) fun _ => .save_last hbefore hafter hok
  have hhalted (halt : Halt) (t : Disk) (ht : halted t) (hQ : Q () t) :
      if halt = .crashed then halted t else Q () t := by
    split_ifs
    · exact ht
    · exact hQ
  have hpoint (point : Point) (t : Disk) (ht : halted t) (hQ : Q () t) :
      wp (env.point point) (fun _ u => u = t)
        (fun halt u => if halt = .crashed then halted u else Q () u) (fun _ => True) t := by
    unfold Environment.point Environment.pointRaising
    split
    · exact wp_pure.mpr rfl
    · exact wp_check.mpr ⟨fun _ herror => (nomatch herror), fun halt _ => hhalted halt t ht hQ⟩
    · exact wp_check.mpr ⟨fun _ herror => (nomatch herror), fun halt _ => hhalted halt t ht hQ⟩
  refine wp_seq (hpoint _ s hbefore (hpassed hfailed.1 hfailed.2)) ?_
  rintro - t rfl
  rw [wp_bind, wp_perform]
  refine ⟨trivial, wp_mono (hpoint _ _ hafter hok) ?_ (fun _ _ h => h) fun _ => id⟩
  rintro - u rfl
  exact hok

end Spec

end Specifications

/-! ### The invariant -/

/-- The record is about the file and about what was submitted. -/
structure Recorded (tools : Tools) (original : File) (disk : Disk) (record : Record) : Prop where
  entry : record.entry = original.identity
  owner : record.mode = original.mode ∧ record.uid = original.uid ∧ record.gid = original.gid
  expected : record.expectedSha256 = tools.sha256 original.data
  sha256 : record.sha256 = tools.sha256 disk.submitted
  readable : tools.readFile original = .ok original.data
  editable : original.editable = true
  text : tools.textBytes disk.submitted = .ok ()

/-- The exchange was announced for this file. -/
def Announced (original : File) (record : Record) (file : File) : Prop :=
  ∃ published, record.publishedIdentity = some published ∧ published.ino = file.ino ∧
    file.ino ≠ original.ino

/-- The phases of an edit. -/
inductive Phase (original : File) (disk : Disk) (record : Record) : Prop
  /-- The exchange was not announced, or was found not to have happened. -/
  | before (hstate : record.state = .failed ∨ record.state = .preparing ∧ record.resolved = false)
    (hdestination : disk.destination = original) (hexchanges : disk.exchanges = 0)
    (hdraft : record.resolved = false → ∃ replacement,
      disk.stage = some ⟨some disk.submitted, replacement⟩)
  /-- The exchange was announced and has not happened. -/
  | announced (new : File) (hstate : record.state = .unknown) (hresolved : record.resolved = false)
    (hdestination : disk.destination = original) (hexchanges : disk.exchanges = 0)
    (hstage : disk.stage = some ⟨some disk.submitted, some new⟩) (hdata : new.data = disk.submitted)
    (hnew : Announced original record new)
  /-- The exchange has happened. -/
  | published (hstate : record.state = .succeeded ∨
      record.state = .unknown ∧ record.resolved = false)
    (hdata : disk.destination.data = disk.submitted) (hexchanges : disk.exchanges = 1)
    (hnew : Announced original record disk.destination)
    (hstage : record.resolved = false → ∃ ctime,
      disk.stage = some ⟨some disk.submitted, some { original with ctime := ctime }⟩)

structure Sound (tools : Tools) (original : File) (disk : Disk) (record : Record) : Prop where
  recorded : Recorded tools original disk record
  phase : Phase original disk record
  retained : record.retained = false → disk.stage = none

/-- The invariant of the node. -/
def Inv (tools : Tools) (original : File) (disk : Disk) : Prop :=
  match disk.record with
  | none => disk.destination = original ∧ disk.stage = none ∧ disk.exchanges = 0
  | some record => Sound tools original disk record

/-- What is known of the disk after a request: the invariant, and that nothing but a cleanup
resolves an edit. -/
structure Left (tools : Tools) (original : File) (disk disk' : Disk) : Prop where
  inv : Inv tools original disk'
  resolved : ∀ record', disk'.record = some record' → record'.resolved = true →
    ∃ record, disk.record = some record ∧ record.resolved = true

section Inspection

variable {tools : Tools} {original : File} {disk : Disk} {record : Record}

theorem Inv.of_sound (hrecord : disk.record = some record) (h : Sound tools original disk record) :
    Inv tools original disk := by
  rw [Inv, hrecord]
  exact h

theorem Inv.sound (h : Inv tools original disk) (hrecord : disk.record = some record) :
    Sound tools original disk record := by
  rw [Inv, hrecord] at h
  exact h

/-- Nothing is known of the record beside what `Sound` reads. -/
theorem Sound.of_eq {disk' : Disk} (h : Sound tools original disk record)
    (hdestination : disk'.destination = disk.destination) (hstage : disk'.stage = disk.stage)
    (hsubmitted : disk'.submitted = disk.submitted) (hexchanges : disk'.exchanges = disk.exchanges) :
    Sound tools original disk' record := by
  obtain ⟨destination, stage, record', submitted, exchanges⟩ := disk
  obtain ⟨destination', stage', record'', submitted', exchanges'⟩ := disk'
  dsimp only at hdestination hstage hsubmitted hexchanges
  subst hdestination hstage hsubmitted hexchanges
  refine ⟨⟨h.recorded.entry, h.recorded.owner, h.recorded.expected, h.recorded.sha256,
    h.recorded.readable, h.recorded.editable, h.recorded.text⟩, ?_, h.retained⟩
  cases h.phase with
  | before hstate hdestination hexchanges hdraft =>
    exact .before hstate hdestination hexchanges hdraft
  | announced new hstate hresolved hdestination hexchanges hstage hdata hnew =>
    exact .announced new hstate hresolved hdestination hexchanges hstage hdata hnew
  | published hstate hdata hexchanges hnew hstage =>
    exact .published hstate hdata hexchanges hnew hstage

theorem readFile_of_text {file : File} (h : tools.textBytes file.data = .ok ()) :
    tools.readFile file = .ok file.data := by
  have hlength : ¬MAX_TEXT < file.data.length := by
    simp only [Tools.textBytes, bind_eq_ok, raiseIf_eq_ok, not_or] at h
    exact h.choose_spec.1.1
  simp [Tools.readFile, raiseIf, hlength, h, pure, Except.pure]

/-- The original is recognised, whatever the exchange has done to its change time. -/
theorem originalMatches_original (h : Recorded tools original disk record) (ctime : ℕ) :
    tools.originalMatches { original with ctime := ctime } record = some true := by
  have hread : tools.readFile { original with ctime := ctime } = .ok original.data := by
    have hreadable := h.readable
    simpa [Tools.readFile] using hreadable
  rw [Tools.originalMatches, hread]
  simp [Except.toOption, h.entry, File.identity, h.expected, h.owner, h.editable]

/-- What an inspection of an announced exchange finds. -/
theorem inspection_of_announced {env : Environment} {new : File}
    (h : Recorded tools original disk record) (hstate : record.state = .unknown)
    (hdestination : disk.destination = original)
    (hstage : disk.stage = some ⟨some disk.submitted, some new⟩) (hdata : new.data = disk.submitted)
    (hnew : Announced original record new) {found : Record}
    (hfound : inspection tools env disk record = some found) :
    found = { record with
      state := .failed
      message := "Publication did not complete. The submitted draft is retained." } := by
  obtain ⟨published, hpublished, hino, hne⟩ := hnew
  have hread : tools.readFile new = .ok disk.submitted := by
    rw [← hdata]
    exact readFile_of_text (by rw [hdata]; exact h.text)
  have hmatches : tools.originalMatches original record = some true :=
    originalMatches_original h original.ctime
  -- The file is not the published one, because its number is another.
  have hnot : ¬tools.isPublished original original.data record published := by
    rintro ⟨heq, -⟩
    exact hne (hino.symm.trans heq.symm)
  have hcopy : tools.isPublished new disk.submitted record published := ⟨hino.symm, h.sha256.symm⟩
  simp only [inspection, hstate, hpublished] at hfound
  split_ifs at hfound
  simp only [Tools.inspected, hstage, hdestination, h.readable, hread, Except.toOption,
    Option.bind_eq_bind, Option.bind_some, if_neg hnot, if_pos hcopy, hmatches, if_true] at hfound
  exact (Option.some.inj hfound).symm

/-- What an inspection of a published edit finds. -/
theorem inspection_of_published {env : Environment} (h : Recorded tools original disk record)
    (hstate : record.state = .unknown) (hdata : disk.destination.data = disk.submitted)
    (hnew : Announced original record disk.destination) {ctime : ℕ}
    (hstage : disk.stage = some ⟨some disk.submitted, some { original with ctime := ctime }⟩)
    {found : Record} (hfound : inspection tools env disk record = some found) :
    found = { record with
      state := .succeeded
      message := "Saved. The prior file and submitted text are retained."
      reference := some disk.destination.identity } := by
  obtain ⟨published, hpublished, hino, -⟩ := hnew
  have hread : tools.readFile disk.destination = .ok disk.submitted := by
    rw [← hdata]
    exact readFile_of_text (by rw [hdata]; exact h.text)
  have hmatches := originalMatches_original h ctime
  have hcopy : tools.isPublished disk.destination disk.submitted record published :=
    ⟨hino.symm, h.sha256.symm⟩
  simp only [inspection, hstate, hpublished] at hfound
  split_ifs at hfound
  simp only [Tools.inspected, hstage, hread, Except.toOption, Option.bind_eq_bind,
    Option.bind_some, if_pos hcopy, hmatches, if_true] at hfound
  exact (Option.some.inj hfound).symm

/-- An inspection leads from one sound record to another, and resolves nothing. -/
theorem Sound.inspection {env : Environment} (h : Sound tools original disk record) {found : Record}
    (hfound : inspection tools env disk record = some found) :
    Sound tools original { disk with record := some found } found ∧
      found.resolved = record.resolved ∧ found.retained = record.retained := by
  have hrecorded := h.recorded
  cases h.phase with
  | before hstate hdestination hexchanges hdraft =>
    rcases hstate with hstate | ⟨hstate, hresolved⟩
    · simp [Editor.inspection, hstate] at hfound
    · -- The draft has been written, so there is a stage.
      obtain ⟨replacement, hstage⟩ := hdraft hresolved
      have hstopped : found = { record with
          state := .failed
          message := "The save stopped before publication. Recover the retained draft." } := by
        simp only [Editor.inspection, hstate, stopped, hstage] at hfound
        rw [if_neg (by simp)] at hfound
        exact (Option.some.inj hfound).symm
      subst hstopped
      exact ⟨⟨⟨hrecorded.entry, hrecorded.owner, hrecorded.expected, hrecorded.sha256,
        hrecorded.readable, hrecorded.editable, hrecorded.text⟩,
        .before (.inl rfl) hdestination hexchanges fun _ => ⟨replacement, hstage⟩, h.retained⟩,
        rfl, rfl⟩
  | announced new hstate hresolved hdestination hexchanges hstage hdata hnew =>
    obtain rfl := inspection_of_announced hrecorded hstate hdestination hstage hdata hnew hfound
    exact ⟨⟨⟨hrecorded.entry, hrecorded.owner, hrecorded.expected, hrecorded.sha256,
      hrecorded.readable, hrecorded.editable, hrecorded.text⟩,
      .before (.inl rfl) hdestination hexchanges fun _ => ⟨some new, hstage⟩, h.retained⟩, rfl, rfl⟩
  | published hstate hdata hexchanges hnew hstage =>
    rcases hstate with hstate | ⟨hstate, hresolved⟩
    · simp [Editor.inspection, hstate] at hfound
    · obtain ⟨ctime, hfiles⟩ := hstage hresolved
      obtain rfl := inspection_of_published hrecorded hstate hdata hnew hfiles hfound
      exact ⟨⟨⟨hrecorded.entry, hrecorded.owner, hrecorded.expected, hrecorded.sha256,
        hrecorded.readable, hrecorded.editable, hrecorded.text⟩,
        .published (.inl rfl) hdata hexchanges hnew fun _ => ⟨ctime, hfiles⟩, h.retained⟩, rfl, rfl⟩

theorem Left.refl (h : Inv tools original disk) : Left tools original disk disk :=
  ⟨h, fun record' hrecord' hresolved => ⟨record', hrecord', hresolved⟩⟩

/-- The record of a disk is replaced by one that is not resolved, or that was resolved before. -/
theorem Left.of_sound {disk' : Disk} (h : Sound tools original disk' record)
    (hrecord : disk'.record = some record)
    (hresolved : record.resolved = true → ∃ old, disk.record = some old ∧ old.resolved = true) :
    Left tools original disk disk' := by
  refine ⟨.of_sound hrecord h, fun record' hrecord' hresolved' => hresolved ?_⟩
  obtain rfl := Option.some.inj (hrecord.symm.trans hrecord')
  exact hresolved'

end Inspection

/-! ### Requests about a record -/

theorem Sound.unchanged {tools : Tools} {original : File} {disk : Disk} {record : Record}
    (h : Sound tools original disk record) (hstate : record.state = .failed) :
    disk.destination = original := by
  cases h.phase with
  | before hphase hdestination => exact hdestination
  | announced new hphase => simp [hstate] at hphase
  | published hphase => simp [hstate] at hphase

/-- The record is the one on the disk. Or it says that the edit has failed, which could not be saved,
and the file is the original. -/
def Reported (original : File) (disk : Disk) (found : Record) : Prop :=
  disk.record = some found ∨ found.state = .failed ∧ disk.destination = original ∧
    ∃ record, disk.record = some record ∧ found.retained = record.retained

/-- The reply is that of a record that is reported. -/
def Replies (original : File) (disk : Disk) (receipt : Option Receipt) : Prop :=
  ∀ found, receipt = some found → ∃ record, Reported original disk record ∧ record.receipt = found

section Requests

variable {tools : Tools} {original : File} {disk : Disk} {record : Record} {env : Environment}

theorem spec_inspectResult (hrecord : disk.record = some record)
    (h : Sound tools original disk record) :
    Spec (inspectResult tools env record)
      (fun found t => Reported original t found ∧ Left tools original disk t)
      (Left tools original disk) disk := by
  have hleft := Left.refl (.of_sound hrecord h)
  refine .disk ?_
  split
  · exact .pure ⟨.inl hrecord, hleft⟩
  · next found hfound =>
    obtain ⟨hsound, hresolved, hretained⟩ := h.inspection hfound
    have hwritten : Left tools original disk { disk with record := some found } :=
      .of_sound hsound rfl fun htrue => ⟨record, hrecord, hresolved ▸ htrue⟩
    refine .bind (.saveFound (Q := fun _ t => Reported original t found ∧ Left tools original disk t)
      hleft hwritten ⟨.inl rfl, hwritten⟩ fun _ hfailed => ⟨.inr ⟨hfailed, ?_, record, hrecord,
        hretained⟩, hleft⟩) fun _ _ hend => .pure hend
    exact hsound.unchanged hfailed

theorem spec_recovery {s : Disk} (env : Environment) (copy : Copy) {halted : Disk → Prop}
    (h : halted s) : Spec (recovery tools env record copy) (fun _ t => t = s) halted s := by
  refine .refuseIf h fun _ => .refuseIf h fun _ => .pointRaising h (.disk (.demand h ?_))
  intro stage _
  have hread {data : Bytes} : Spec (do checked (tools.textBytes data); return data)
      (fun _ t => t = s) halted s := .checked h fun _ _ => .pure rfl
  cases copy with
  | draft => exact .demand h fun _ _ => hread
  | replacement => exact .demand h fun _ _ => hread

/-- The outcome of the edit is known. -/
def SaveState.Settled (state : SaveState) : Prop := state ≠ .unknown ∧ state ≠ .preparing

/-- A settled edit is resolved. -/
theorem Sound.resolve (h : Sound tools original disk record) (hstate : record.state.Settled) :
    Sound tools original { disk with record := some { record with resolved := true } }
      { record with resolved := true } := by
  have hrecorded := h.recorded
  refine ⟨⟨hrecorded.entry, hrecorded.owner, hrecorded.expected, hrecorded.sha256,
    hrecorded.readable, hrecorded.editable, hrecorded.text⟩, ?_, h.retained⟩
  cases h.phase with
  | before hphase hdestination hexchanges hdraft =>
    rcases hphase with hphase | ⟨hphase, -⟩
    · exact .before (.inl hphase) hdestination hexchanges fun hfalse => nomatch hfalse
    · exact absurd hphase hstate.2
  | announced new hphase => exact absurd hphase hstate.1
  | published hphase hdata hexchanges hnew hstage =>
    rcases hphase with hphase | ⟨hphase, -⟩
    · exact .published (.inl hphase) hdata hexchanges hnew fun hfalse => nomatch hfalse
    · exact absurd hphase hstate.1

/-- Once the edit is resolved the stage can be removed. -/
theorem Sound.with_stage (h : Sound tools original disk record) (hresolved : record.resolved = true)
    {stage : Option Stage} (hretained : record.retained = false → stage = none) :
    Sound tools original { disk with stage := stage } record := by
  have hrecorded := h.recorded
  refine ⟨⟨hrecorded.entry, hrecorded.owner, hrecorded.expected, hrecorded.sha256,
    hrecorded.readable, hrecorded.editable, hrecorded.text⟩, ?_, hretained⟩
  have hnot : record.resolved = false → False := by simp [hresolved]
  cases h.phase with
  | before hphase hdestination hexchanges hdraft =>
    exact .before hphase hdestination hexchanges fun hfalse => (hnot hfalse).elim
  | announced new hphase hfalse => exact (hnot hfalse).elim
  | published hphase hdata hexchanges hnew hstage =>
    exact .published hphase hdata hexchanges hnew fun hfalse => (hnot hfalse).elim

theorem Sound.release (h : Sound tools original disk record) (hresolved : record.resolved = true)
    (hstage : disk.stage = none) :
    Sound tools original { disk with record := some { record with retained := false } }
      { record with retained := false } := by
  have hrecorded := h.recorded
  refine ⟨⟨hrecorded.entry, hrecorded.owner, hrecorded.expected, hrecorded.sha256,
    hrecorded.readable, hrecorded.editable, hrecorded.text⟩, ?_, fun _ => hstage⟩
  have hnot : record.resolved = false → False := by simp [hresolved]
  cases h.phase with
  | before hphase hdestination hexchanges hdraft =>
    exact .before (hphase.imp_right fun ⟨hstate, hfalse⟩ => (hnot hfalse).elim) hdestination
      hexchanges fun hfalse => (hnot hfalse).elim
  | announced new hphase hfalse => exact (hnot hfalse).elim
  | published hphase hdata hexchanges hnew hfiles =>
    exact .published (hphase.imp_right fun ⟨hstate, hfalse⟩ => (hnot hfalse).elim) hdata hexchanges
      hnew fun hfalse => (hnot hfalse).elim

theorem spec_removeStage (hrecord : disk.record = some record)
    (h : Sound tools original disk record) (hstate : record.state.Settled)
    (hretained : record.retained = true) :
    Spec (removeStage env record) (fun found t => t.record = some found ∧ Inv tools original t)
      (Inv tools original) disk := by
  have hinv : Inv tools original disk := .of_sound hrecord h
  set resolved : Record := { record with resolved := true } with hresolved
  -- From here on the invariant says nothing about the stage.
  have hkept {stage : Option Stage} :
      Sound tools original { disk with stage := stage, record := some resolved } resolved :=
    (h.resolve hstate).with_stage rfl (by simp [hretained])
  let removing : Disk → Prop := fun t =>
    ∃ stage, t = { disk with stage := stage, record := some resolved }
  have hremoving : ∀ t, removing t → Inv tools original t := by
    rintro - ⟨stage, rfl⟩
    exact .of_sound rfl hkept
  have hfirst : removing { disk with record := some resolved } := ⟨disk.stage, rfl⟩
  refine .pointRaising hinv (.save hinv (hremoving _ hfirst) (.bind (M := fun _ => removing) ?_ ?_))
  · refine wp_each (I := removing) (fun copy _ t ht => ?_) hfirst
    obtain ⟨stage, rfl⟩ := ht
    have hunlinked : removing { disk with
        stage := stage.map (unlink copy), record := some resolved } := ⟨_, rfl⟩
    exact Spec.perform (.pointRaising_last hunlinked (hremoving _ hunlinked))
  · rintro - t ⟨stage, rfl⟩
    refine .pointRaising (hremoving _ ⟨stage, rfl⟩) (.perform ?_)
    have hgone : Sound tools original { disk with stage := none, record := some resolved } resolved :=
      hkept
    have hreleased : Inv tools original { disk with
        stage := none, record := some { resolved with retained := false } } :=
      .of_sound rfl (hgone.release rfl rfl)
    exact .pointRaising (.of_sound rfl hgone)
      (.save (.of_sound rfl hgone) hreleased (.pure ⟨rfl, hreleased⟩))

theorem spec_removedStage (hrecord : disk.record = some record)
    (h : Sound tools original disk record) (hstage : disk.stage = none) :
    Spec (removedStage env record) (fun found t => t.record = some found ∧ Inv tools original t)
      (Inv tools original) disk := by
  have hinv : Inv tools original disk := .of_sound hrecord h
  refine .refuseIf hinv fun hresolved => ?_
  have hreleased : Inv tools original { disk with record := some { record with retained := false } } :=
    .of_sound rfl (h.release (by simpa using hresolved) hstage)
  exact .pointRaising hinv (.save hinv hreleased (.pure ⟨rfl, hreleased⟩))

/-- The cleanup of a settled edit. A conflict needs another writer of the file. -/
theorem spec_cleanup {readOnly confirm recovered : Bool} (hrecord : disk.record = some record)
    (h : Sound tools original disk record) :
    Spec (cleanup tools env record readOnly confirm recovered)
      (fun found t => t.record = some found ∧ Inv tools original t ∧
        (t = disk ∨ confirm = true ∧ record.state.Settled))
      (fun t => Inv tools original t ∧ (t = disk ∨ confirm = true ∧ record.state.Settled)) disk := by
  have hinv : Inv tools original disk := .of_sound hrecord h
  refine .refuseIf ⟨hinv, .inl rfl⟩ fun hconfirm => .refuseIf ⟨hinv, .inl rfl⟩ fun _ =>
    .refuseIf ⟨hinv, .inl rfl⟩ fun hstate => ?_
  have hsettled : confirm = true ∧ record.state.Settled := ⟨by simpa using hconfirm, by
    simpa [SaveState.Settled] using hstate⟩
  have hconflict : record.state ≠ .conflict := by
    intro hconflict
    cases h.phase with
    | before hphase => simp [hconflict] at hphase
    | announced new hphase => simp [hconflict] at hphase
    | published hphase => simp [hconflict] at hphase
  rw [if_neg fun hboth => hconflict hboth.1]
  refine .bind (.pure (Q := fun found t => found = record ∧ t = disk) ⟨rfl, rfl⟩) ?_
  rintro found t ⟨rfl, rfl⟩
  refine .ite (fun _ => .pure ⟨hrecord, hinv, .inl rfl⟩) fun hretained => ?_
  refine .pointRaising ⟨hinv, .inl rfl⟩ (.disk (.ite (fun hstage => ?_) fun hstage => ?_))
  · exact (spec_removedStage hrecord h hstage).mono
      (fun _ _ hend => ⟨hend.1, hend.2, .inr hsettled⟩) fun _ hend => ⟨hend, .inr hsettled⟩
  · exact (spec_removeStage hrecord h hsettled.2 (by simpa using hretained)).mono
      (fun _ _ hend => ⟨hend.1, hend.2, .inr hsettled⟩) fun _ hend => ⟨hend, .inr hsettled⟩

end Requests

end Ficc.Editor
