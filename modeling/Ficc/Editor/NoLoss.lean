import Ficc.Editor.Controller
import Mathlib.Algebra.GroupWithZero.Nat

/-!
# An edit never loses a copy

The invariant of the node goes through every request, and with it what the controller has recorded:
an item that is not retained has no stage on the node, and none can come any more.
-/

namespace Ficc.Editor

open Durable

/-! ### Requests about a journaled edit -/

section Journaled

variable {tools : Tools} {env : Environment} {record : Record} {s : Disk}

/-- What a request keeps of an edit that is journaled: a settled state and the file stay, and a stage
that is gone does not come back. -/
structure Continues (record : Record) (s t : Disk) : Prop where
  destination : t.destination = s.destination
  stage : s.stage = none → t.stage = none
  state : ∃ record', t.record = some record' ∧
    (record.state.Settled → record'.state = record.state)

theorem Continues.refl (hrecord : s.record = some record) : Continues record s s :=
  ⟨rfl, id, record, hrecord, fun _ => rfl⟩

/-- The record is replaced by one with the same state. -/
theorem Continues.of_state {record' : Record} {t : Disk} (hdestination : t.destination = s.destination)
    (hstage : s.stage = none → t.stage = none) (hrecord : t.record = some record')
    (hstate : record'.state = record.state) : Continues record s t :=
  ⟨hdestination, hstage, record', hrecord, fun _ => hstate⟩

/-- An inspection continues the record. -/
theorem continues_inspectResult (hrecord : s.record = some record) :
    Spec (inspectResult tools env record) (fun _ => Continues record s) (Continues record s) s := by
  refine .disk ?_
  split
  · exact .pure (.refl hrecord)
  · next found hfound =>
    have hunsettled : ¬record.state.Settled := by
      rintro ⟨hunknown, hpreparing⟩
      unfold inspection at hfound
      split at hfound
      · exact hpreparing ‹_›
      · exact hunknown ‹_›
      · cases hfound
    have hwritten : Continues record s { s with record := some found } :=
      ⟨rfl, id, found, rfl, fun hsettled => absurd hsettled hunsettled⟩
    exact .bind (.saveFound (Q := fun _ => Continues record s) (.refl hrecord) hwritten hwritten
      fun _ _ => .refl hrecord) fun _ _ hend => .pure hend

/-- So does the removal of the stage. -/
theorem continues_removeStage (hrecord : s.record = some record) :
    Spec (removeStage env record) (fun _ => Continues record s) (Continues record s) s := by
  set resolved : Record := { record with resolved := true }
  let removing : Disk → Prop := fun t =>
    t.destination = s.destination ∧ (s.stage = none → t.stage = none) ∧ t.record = some resolved
  have hremoving : ∀ t, removing t → Continues record s t :=
    fun t ht => .of_state ht.1 ht.2.1 ht.2.2 rfl
  have hfirst : removing { s with record := some resolved } := ⟨rfl, id, rfl⟩
  refine .pointRaising (.refl hrecord) (.save (.refl hrecord) (hremoving _ hfirst)
    (.bind (M := fun _ => removing) ?_ ?_))
  · refine wp_each (I := removing) (fun copy _ t ht => ?_) hfirst
    have hunlinked : removing { t with stage := t.stage.map (unlink copy) } :=
      ⟨ht.1, fun hstage => by rw [ht.2.1 hstage, Option.map_none], ht.2.2⟩
    exact Spec.perform (.pointRaising_last hunlinked (hremoving _ hunlinked))
  · intro _ t ht
    have hgone : Continues record s { t with stage := none } :=
      .of_state ht.1 (fun _ => rfl) ht.2.2 rfl
    have hreleased : Continues record s { t with
        stage := none, record := some { resolved with retained := false } } :=
      .of_state ht.1 (fun _ => rfl) rfl rfl
    exact .pointRaising (hremoving _ ht) (.perform (.pointRaising hgone
      (.save hgone hreleased (.pure hreleased))))

/-- So does a cleanup. -/
theorem continues_cleanup {readOnly confirm recovered : Bool} (hrecord : s.record = some record) :
    Spec (cleanup tools env record readOnly confirm recovered) (fun _ => Continues record s)
      (Continues record s) s := by
  have hrefl : Continues record s s := .refl hrecord
  -- The rest of a cleanup, after a conflict has been confirmed or not.
  have hrest {found : Record} {t : Disk} (hdestination : t.destination = s.destination)
      (hstage : t.stage = s.stage) (hfound : t.record = some found) (hstate : found.state = record.state) :
      Spec (do
        if found.retained = false then return found
        env.point .folder
        let disk ← disk
        if disk.stage = none then removedStage env found else removeStage env found)
        (fun _ => Continues record s) (Continues record s) t := by
    have hhere : Continues record s t :=
      .of_state hdestination (fun h => hstage.trans h) hfound hstate
    have hon {t' : Disk} (h : Continues found t t') : Continues record s t' := by
      obtain ⟨record', hrecord', hkept⟩ := h.state
      refine ⟨h.destination.trans hdestination, fun hnone => h.stage (hstage.trans hnone), record',
        hrecord', fun hsettled => ?_⟩
      rw [hkept (by rw [hstate]; exact hsettled), hstate]
    refine .ite (fun _ => .pure hhere) fun _ => .pointRaising hhere (.disk (.ite (fun _ => ?_)
      fun _ => (continues_removeStage hfound).mono (fun _ _ => hon) fun _ => hon))
    have hreleased : Continues record s { t with record := some { found with retained := false } } :=
      .of_state hdestination (fun h => hstage.trans h) rfl hstate
    exact .refuseIf hhere fun _ => .pointRaising hhere
      (.save hhere hreleased (.pure hreleased))
  refine .refuseIf hrefl fun _ => .refuseIf hrefl fun _ => .refuseIf hrefl fun _ => ?_
  refine .ite (fun _ => ?_) fun _ => ?_
  · refine .bind (M := fun found t => (t.destination = s.destination ∧ t.stage = s.stage) ∧
      t.record = some found ∧ found.state = record.state) ?_
      fun found t ht => hrest ht.1.1 ht.1.2 ht.2.1 ht.2.2
    refine .refuseIf hrefl fun _ => .bind (spec_recovery env .replacement hrefl) ?_
    rintro _ t rfl
    refine .bind (spec_recovery env .draft hrefl) ?_
    rintro _ t rfl
    have hconfirmed : Continues record t { t with record := some { record with resolved := true } } :=
      .of_state rfl id rfl rfl
    exact .save hrefl hconfirmed (.pure ⟨⟨rfl, rfl⟩, rfl, rfl⟩)
  · exact .bind (.pure (Q := fun found t => found = record ∧ t = s) ⟨rfl, rfl⟩)
      (by rintro found t ⟨rfl, rfl⟩; exact hrest rfl rfl hrecord rfl)

/-- Every request about a journaled edit continues it. -/
theorem continues_dispatch (request : Request) (hrecord : s.record = some record) :
    Spec (dispatch tools env request) (fun _ => Continues record s) (Continues record s) s := by
  have hrefl : Continues record s s := .refl hrecord
  have hjournaled {f : Record → Program (Option Receipt)}
      (hnext : Spec (f record) (fun _ => Continues record s) (Continues record s) s) :
      Spec (journaled >>= f) (fun _ => Continues record s) (Continues record s) s := by
    refine .bind (M := fun found t => found = record ∧ t = s) ?_ ?_
    · refine .disk (wp_demand.mpr ⟨fun _ => hrefl, fun found hfound => ⟨?_, rfl⟩⟩)
      exact Option.some.inj (hfound.symm.trans hrecord)
    · rintro found t ⟨rfl, rfl⟩
      exact hnext
  cases request with
  | save request =>
    refine .bind (M := fun _ => Continues record s) ?_ fun _ _ h => .pure h
    refine .checked hrefl fun _ _ => .disk ?_
    rw [hrecord]
    exact .refuseIf hrefl fun _ => continues_inspectResult hrecord
  | status =>
    exact hjournaled (.bind (continues_inspectResult hrecord) fun _ _ h => .pure h)
  | recovery copy =>
    refine hjournaled (.bind (spec_recovery env copy hrefl) ?_)
    rintro _ t rfl
    exact .pure hrefl
  | cleanup readOnly confirm recovered =>
    exact hjournaled (.bind (continues_cleanup hrecord) fun _ _ h => .pure h)

end Journaled

/-! ### Refusals -/

section Refusals

variable {α β : Type} {tools : Tools} {env : Environment}

/-- The program raises nothing but errors of the operating system. -/
def Quiet (p : Program α) : Prop :=
  ∀ s, wp p (fun _ _ => True) (fun halt _ => ∀ error, halt = .raised error → error = .os)
    (fun _ => True) s

namespace Quiet

theorem pure (a : α) : Quiet (pure a) := fun _ => wp_pure.mpr trivial

theorem bind {p : Program α} {f : α → Program β} (hp : Quiet p) (hf : ∀ a, Quiet (f a)) :
    Quiet (p >>= f) :=
  fun s => wp_seq (hp s) fun a t _ => hf a t

theorem disk {f : Disk → Program β} (hf : ∀ s, Quiet (f s)) : Quiet (Durable.disk >>= f) :=
  .bind (fun _ => wp_disk.mpr trivial) hf

theorem perform (g : Disk → Disk) : Quiet (Durable.perform g) :=
  fun _ => wp_perform.mpr ⟨trivial, trivial⟩

theorem attempt (p : Program α) : Quiet (Durable.attempt p) := by
  intro s
  rw [wp_attempt]
  exact ⟨fun _ _ => trivial, by split <;> trivial⟩

theorem point (point : Point) : Quiet (env.point point) := by
  unfold Environment.point Environment.pointRaising
  split
  · exact .pure ()
  · exact fun _ => wp_check.mpr ⟨fun _ _ => trivial, by rintro _ ⟨⟩ _ ⟨⟩; rfl⟩
  · exact fun _ => wp_check.mpr ⟨fun _ _ => trivial, by rintro _ ⟨⟩ _ ⟨⟩⟩

theorem save (number : ℕ) (record : Record) : Quiet (env.save number record) :=
  .bind (.point _) fun _ => .bind (.perform _) fun _ => .point _

theorem handle (record : Record) (halt : Halt) : Quiet (handle env record halt) := by
  cases halt with
  | crashed => exact fun _ => wp_check.mpr ⟨fun _ _ => trivial, by rintro _ ⟨⟩ _ ⟨⟩⟩
  | raised error =>
    refine .bind ?_ fun found => .bind (.save 3 found) fun _ => .pure found
    unfold markFailed
    split
    · exact .bind (.point _) fun _ => .disk fun _ => .pure _
    · exact .pure record

/-- After the record has been journaled, errors are handled. -/
theorem attemptSave (record : Record) (data : Bytes) :
    Quiet (attemptSave tools env record data) := by
  refine .bind (.attempt _) fun result => ?_
  cases result with
  | error halt => exact .handle _ halt
  | ok _ =>
    refine .bind (.attempt _) fun result => ?_
    cases result with
    | error halt => exact .handle _ halt
    | ok _ =>
      refine .disk fun s => ?_
      split
      · exact .pure _
      · refine .bind (.attempt _) fun result => ?_
        cases result with
        | error halt => exact .handle _ halt
        | ok _ => exact .pure _

end Quiet

/-- A new save that raises another error than one of the operating system has left no trace. -/
theorem serve_save_of_refused {s : Disk} {request : SaveRequest} (hrecord : s.record = none)
    {error : Error} (hne : error ≠ .os)
    (hresult : (dispatch tools env (.save request) s).result = .error (.raised error)) :
    serve tools env (.save request) s = s := by
  have hspec : wp (dispatch tools env (.save request)) (fun _ _ => True)
      (fun halt t => ∀ error, halt = .raised error → error ≠ .os → t = s) (fun _ => True) s := by
    have hhere (halt : Halt) : ∀ error, halt = .raised error → error ≠ .os → s = s :=
      fun _ _ _ => rfl
    refine wp_seq (M := fun _ _ => True) ?_ fun _ _ _ => wp_pure.mpr trivial
    refine wp_bind.mpr (wp_check.mpr ⟨fun _ _ => ?_, fun halt _ => hhere halt⟩)
    rw [wp_bind, wp_disk, hrecord]
    refine wp_seq (M := fun _ t => t = s) ?_ ?_
    · -- The checks read the disk and write nothing.
      have hcheck : Spec (checkSave tools env request) (fun _ t => t = s) (fun t => t = s) s := by
        refine .refuseIf rfl fun _ => .pointRaising rfl (.bind (M := fun _ t => t = s) ?_ ?_)
        · exact .disk (wp_refuseIf.mpr ⟨fun _ => rfl, fun _ => rfl⟩)
        · rintro _ t rfl
          exact .disk (.checked rfl fun _ _ => .refuseIf rfl fun _ => .refuseIf rfl fun _ =>
            .checked rfl fun _ _ => .pure rfl)
      exact wp_mono hcheck (fun _ _ h => h) (fun _ t ht _ _ _ => ht) fun _ h => h
    · -- What follows the journal entry raises nothing else.
      rintro file t -
      have hquiet : Quiet (do
          env.point (.journal 0 false)
          Durable.perform fun disk => { disk with
            record := some (newRecord tools request file), submitted := request.data }
          env.point (.journal 0 true)
          attemptSave tools env (newRecord tools request file) request.data) :=
        .bind (.point _) fun _ => .bind (.perform _) fun _ => .bind (.point _) fun _ =>
          .attemptSave _ _
      exact wp_mono (hquiet t) (fun _ _ h => h)
        (fun halt _ h error herror hos => absurd (h error herror) hos) fun _ h => h
  have hend := hspec.2
  rw [hresult] at hend
  exact hend error rfl hne

/-- A request other than a save needs a record. -/
theorem serve_of_missing {s : Disk} {request : Request} (hrecord : s.record = none)
    (hsave : ∀ saved, request ≠ .save saved) : serve tools env request s = s := by
  have hmissing {f : Record → Program (Option Receipt)} : cut (journaled >>= f) s none = s := by
    have hspec : Spec (journaled >>= f) (fun _ t => t = s) (fun t => t = s) s := by
      refine .bind (M := fun _ _ => False) (.disk ?_) fun _ _ h => h.elim
      rw [hrecord]
      exact wp_demand.mpr ⟨fun _ => rfl, by rintro _ ⟨⟩⟩
    have hend := hspec.2
    unfold cut
    cases hresult : ((journaled >>= f) s).result with
    | ok reply =>
      rw [hresult] at hend
      exact hend
    | error halt =>
      rw [hresult] at hend
      exact hend
  cases request with
  | save saved => exact absurd rfl (hsave saved)
  | status => exact hmissing
  | recovery copy => exact hmissing
  | cleanup readOnly confirm recovered => exact hmissing

end Refusals

/-! ### The invariant of the system -/

/-- None of the requests is a save. -/
def NoSaves (requests : List Request) : Prop := ∀ saved, Request.save saved ∉ requests

/-- What the controller has recorded fits to what is on the node. -/
structure Consistent (tools : Tools) (original : File) (s : System) : Prop where
  inv : Inv tools original s.disk
  fresh : s.item = none → s.disk.record = none ∧ s.late = []
  retained : ∀ {item}, s.item = some item → item.retained = false →
    s.disk.stage = none ∧ (s.disk.record = none → NoSaves s.late)
  succeeded : ∀ {item}, s.item = some item → item.state = .succeeded →
    ∃ record, s.disk.record = some record ∧ record.state = .succeeded
  failed : ∀ {item}, s.item = some item → item.state = .failed →
    (s.disk.record = none ∧ NoSaves s.late) ∨
      s.disk.record.isSome ∧ s.disk.destination = original
  pending : ∀ {item}, s.item = some item → item.state = .pending →
    s.disk.record = none ∧ NoSaves s.late

/-- The item can have a save under way. -/
def Item.Waits (item : Item) : Prop :=
  item.retained = true ∧ item.state ≠ .failed ∧ item.state ≠ .pending

section Consistency

variable {tools : Tools} {original : File} {s : System} {env : Environment} {request : Request}

theorem Consistent.initial (file : File) : Consistent tools file (.initial file) where
  inv := ⟨rfl, rfl, rfl⟩
  fresh _ := ⟨rfl, rfl⟩
  retained h := by cases h
  succeeded h := by cases h
  failed h := by cases h
  pending h := by cases h

/-- What a program that is specified leaves behind. -/
theorem Spec.cut {α : Type} {p : Program α} {Q : α → Disk → Prop} {halted : Disk → Prop} {d : Disk}
    (h : Spec p Q halted d) (hok : ∀ a t, Q a t → halted t) : halted (cut p d none) := by
  have hend := h.2
  unfold Durable.cut
  cases hresult : (p d).result with
  | ok a =>
    rw [hresult] at hend
    exact hok a _ hend
  | error halt =>
    rw [hresult] at hend
    exact hend

/-- A served request is reported by its record. -/
theorem served_serve (h : Inv tools original s.disk) (hstores : request.Stores env s.disk) :
    Served tools original request s.disk (serve tools env request s.disk) :=
  (spec_dispatch request hstores h).cut fun _ _ hend => hend.2

/-- A request about a record continues it. -/
theorem continues_serve {record : Record} (hrecord : s.disk.record = some record) :
    Continues record s.disk (serve tools env request s.disk) :=
  (continues_dispatch request hrecord).cut fun _ _ hend => hend

/-- A reply is a record that is reported. -/
theorem replies_serve (h : Inv tools original s.disk) (hstores : request.Stores env s.disk)
    {receipt : Receipt} (hresult : (dispatch tools env request s.disk).result = .ok (some receipt)) :
    ∃ record, Reported original (serve tools env request s.disk) record ∧
      record.receipt = receipt := by
  have hend := (spec_dispatch request hstores h).2
  rw [hresult] at hend
  exact hend.1 receipt rfl

/-- The node serves a request. A save that is new belongs to an item that waits for it. -/
theorem Consistent.serve (h : Consistent tools original s) (hstores : request.Stores env s.disk)
    {item : Item} (hitem : s.item = some item)
    (hnew : s.disk.record = none → ∀ saved, request = .save saved → item.Waits) {late : List Request}
    (hlate : NoSaves s.late → NoSaves late) :
    Consistent tools original
      { s with disk := serve tools env request s.disk, late := late } := by
  have hserved := served_serve h.inv hstores
  cases hrecord : s.disk.record with
  | some record =>
    have hcontinues := @continues_serve tools s env request record hrecord
    obtain ⟨record', hrecord', hstate⟩ := hcontinues.state
    refine ⟨hserved.inv, fun hnone => by simp [hitem] at hnone, fun hfound hretained => ?_,
      fun hfound hsucceeded => ?_, fun hfound hfailed => ?_, fun hfound hpending => ?_⟩
    · refine ⟨hcontinues.stage (h.retained hfound hretained).1, fun hnone => ?_⟩
      rw [hrecord'] at hnone
      cases hnone
    · obtain ⟨found, hfound, hsettled⟩ := h.succeeded hfound hsucceeded
      obtain rfl := Option.some.inj (hrecord.symm.trans hfound)
      exact ⟨record', hrecord', by rw [hstate (by simp [SaveState.Settled, hsettled]), hsettled]⟩
    · rcases h.failed hfound hfailed with ⟨hnone, -⟩ | ⟨-, hdestination⟩
      · rw [hrecord] at hnone
        cases hnone
      · refine .inr ⟨?_, hcontinues.destination.trans hdestination⟩
        exact Option.isSome_of_eq_some hrecord'
    · have hnone := (h.pending hfound hpending).1
      rw [hrecord] at hnone
      cases hnone
  | none =>
    by_cases hsave : ∃ saved, request = .save saved
    · obtain ⟨saved, hsaved⟩ := hsave
      obtain ⟨hretained, hnotFailed, hnotPending⟩ := hnew hrecord saved hsaved
      refine ⟨hserved.inv, fun hnone => by simp [hitem] at hnone, fun hfound hfalse => ?_,
        fun hfound hsucceeded => ?_, fun hfound hfailed => ?_, fun hfound hpending => ?_⟩
      · obtain rfl := Option.some.inj (hitem.symm.trans hfound)
        rw [hretained] at hfalse
        cases hfalse
      · obtain ⟨found, hsome, -⟩ := h.succeeded hfound hsucceeded
        rw [hrecord] at hsome
        cases hsome
      · obtain rfl := Option.some.inj (hitem.symm.trans hfound)
        exact absurd hfailed hnotFailed
      · obtain rfl := Option.some.inj (hitem.symm.trans hfound)
        exact absurd hpending hnotPending
    · -- Without a record nothing but a save does anything.
      have hsame : Editor.serve tools env request s.disk = s.disk :=
        serve_of_missing hrecord fun saved hsaved => hsave ⟨saved, hsaved⟩
      rw [hsame]
      refine ⟨h.inv, fun hnone => by simp [hitem] at hnone, fun hfound hretained => ?_,
        h.succeeded, fun hfound hfailed => ?_, fun hfound hpending => ?_⟩
      · exact ⟨(h.retained hfound hretained).1, fun hnone => hlate
          ((h.retained hfound hretained).2 hnone)⟩
      · exact (h.failed hfound hfailed).imp_left fun hnone => ⟨hnone.1, hlate hnone.2⟩
      · exact ⟨hrecord, hlate (h.pending hfound hpending).2⟩

/-- A request is sent and its reply is lost. -/
theorem Consistent.lost (h : Consistent tools original s) {item : Item} (hitem : s.item = some item)
    {late : List Request} (hlate : ¬item.Waits → NoSaves s.late → NoSaves late) :
    Consistent tools original { s with late := late } := by
  refine ⟨h.inv, fun hnone => by simp [hitem] at hnone, fun hfound hretained => ?_, h.succeeded,
    fun hfound hfailed => ?_, fun hfound hpending => ?_⟩
  · obtain rfl := Option.some.inj (hitem.symm.trans hfound)
    exact ⟨(h.retained hfound hretained).1, fun hnone => hlate (by simp [Item.Waits, hretained])
      ((h.retained hfound hretained).2 hnone)⟩
  · obtain rfl := Option.some.inj (hitem.symm.trans hfound)
    exact (h.failed hfound hfailed).imp_left fun hnone =>
      ⟨hnone.1, hlate (by simp [Item.Waits, hfailed]) hnone.2⟩
  · obtain rfl := Option.some.inj (hitem.symm.trans hfound)
    obtain ⟨hnone, hsaves⟩ := h.pending hfound hpending
    exact ⟨hnone, hlate (by simp [Item.Waits, hpending]) hsaves⟩

/-- The controller takes over a receipt that the node reports. -/
theorem Consistent.apply (h : Consistent tools original s) {record : Record}
    (hreported : Reported original s.disk record) :
    Consistent tools original { s with item := some record.receipt.item } := by
  obtain ⟨stored, hstored, hretained⟩ : ∃ stored, s.disk.record = some stored ∧
      record.retained = stored.retained := by
    obtain hrecord | ⟨-, -, hstored⟩ := hreported
    · exact ⟨record, hrecord, rfl⟩
    · exact hstored
  refine ⟨h.inv, fun hnone => (nomatch hnone), ?_, ?_, ?_, ?_⟩
  · rintro item ⟨⟩ hreleased
    refine ⟨(h.inv.sound hstored).retained (hretained.symm.trans hreleased), fun hnone => ?_⟩
    rw [hstored] at hnone
    cases hnone
  · rintro item ⟨⟩ hstate
    have hsucceeded : record.state = .succeeded := by
      cases hsaved : record.state <;>
        simp [Receipt.item, Record.receipt, SaveState.item, hsaved] at hstate
      rfl
    obtain hrecord | ⟨hfailed, -⟩ := hreported
    · exact ⟨record, hrecord, hsucceeded⟩
    · rw [hsucceeded] at hfailed
      cases hfailed
  · rintro item ⟨⟩ hstate
    have hfailed : record.state = .failed := by
      cases hsaved : record.state <;>
        simp [Receipt.item, Record.receipt, SaveState.item, hsaved] at hstate
      rfl
    refine .inr ⟨Option.isSome_of_eq_some hstored, ?_⟩
    obtain hrecord | ⟨-, hdestination, -⟩ := hreported
    · exact (h.inv.sound hrecord).unchanged hfailed
    · exact hdestination
  · rintro item ⟨⟩ hstate
    cases hsaved : record.state <;>
      simp [Receipt.item, Record.receipt, SaveState.item, hsaved] at hstate

/-- A receipt passes the checks only as the node has returned it. -/
theorem checkedReply_eq_ok {write : Bool} {transport after : Option Denial}
    {reply : Except Error (Option Receipt)} {receipt : Option Receipt}
    (h : checkedReply write transport after reply = .ok receipt) :
    ∃ found, reply = .ok found ∧ found = receipt := by
  cases reply with
  | error error => cases h
  | ok found =>
    refine ⟨found, rfl, ?_⟩
    unfold checkedReply at h
    dsimp only at h
    split at h
    · cases h
    · cases h
    · exact Except.ok.inj h

/-- An answer is what the node has returned. -/
theorem answered_eq_ok {result : Except Halt (Option Receipt)} {receipt : Option Receipt}
    (h : answered result = .ok receipt) : result = .ok receipt := by
  unfold answered at h
  split at h
  · exact congrArg Except.ok (Except.ok.inj h)
  · cases h
  · cases h
  · cases h

/-- Everything that holds of a call about an item: the system is consistent, and a receipt that the
call returns is one that the node reports. -/
theorem Consistent.call (h : Consistent tools original s) {item : Item} (hitem : s.item = some item)
    {write : Bool} {outcome : Outcome}
    (hstores : ∀ env transport after, outcome = .served env transport after →
      request.Stores env s.disk)
    (hnew : ∀ saved, request = .save saved → item.Waits) :
    Consistent tools original (call tools s write request outcome).1 ∧
      ∀ receipt, (call tools s write request outcome).2 = .ok (some receipt) →
        ∃ record, Reported original (call tools s write request outcome).1.disk record ∧
          record.receipt = receipt := by
  cases outcome with
  | refused error => exact ⟨h, by rintro receipt ⟨⟩⟩
  | lost =>
    refine ⟨h.lost hitem fun hwaits hnone saved hmem => ?_, by rintro receipt ⟨⟩⟩
    rcases List.mem_cons.mp hmem with hsaved | hmem
    · exact absurd (hnew saved hsaved.symm) hwaits
    · exact hnone saved hmem
  | served env transport after =>
    have hserved := hstores env transport after rfl
    refine ⟨h.serve hserved hitem (fun _ => hnew) id, fun receipt hreply => ?_⟩
    refine replies_serve h.inv hserved ?_
    dsimp only [Editor.call] at hreply
    obtain ⟨reply, hreply', hsame⟩ := checkedReply_eq_ok hreply
    rw [hsame] at hreply'
    exact answered_eq_ok hreply'

/-- A call leaves the controller's row. -/
theorem call_item (write : Bool) (request : Request) (outcome : Outcome) :
    (call tools s write request outcome).1.item = s.item := by
  cases outcome <;> rfl

/-- The node has nothing of an edit when the call that saves it raises what counts as a refusal. -/
theorem call_of_refuses {saved : SaveRequest} (hrecord : s.disk.record = none)
    (hlate : NoSaves s.late) {outcome : Outcome} {error : Error} (hrefuses : Refuses error)
    (herror : (call tools s true (.save saved) outcome).2 = .error error) :
    (call tools s true (.save saved) outcome).1.disk = s.disk ∧
      NoSaves (call tools s true (.save saved) outcome).1.late := by
  cases outcome with
  | refused refusal => exact ⟨rfl, hlate⟩
  | lost =>
    obtain rfl := Except.error.inj herror
    exact absurd hrefuses (by decide)
  | served env transport after =>
    refine ⟨?_, hlate⟩
    dsimp only [Editor.call] at herror
    cases hresult : (dispatch tools env (.save saved) s.disk).result with
    | ok reply =>
      -- The node has replied, so the error is one of the checks.
      rw [hresult] at herror
      cases transport with
      | some denial =>
        obtain rfl := Except.error.inj herror
        exact absurd hrefuses denial.dispatched
      | none =>
        cases after with
        | some denial =>
          obtain rfl : authorityChanged = error := Except.error.inj herror
          exact absurd hrefuses (by decide)
        | none => cases herror
    | error halt =>
      rw [hresult] at herror
      cases halt with
      | crashed =>
        obtain rfl := Except.error.inj herror
        exact absurd hrefuses (by decide)
      | raised cause =>
        cases cause with
        | failure code message status => exact serve_save_of_refused hrecord (by simp) hresult
        | _ =>
          obtain rfl := Except.error.inj herror
          exact absurd hrefuses (by decide)

/-- A save keeps both ends consistent. -/
theorem Consistent.saveItem (h : Consistent tools original s) (hitem : s.item = none)
    {saved : SaveRequest} {stop : Option Stop} {denied : Option Error} {outcome : Outcome}
    (hstores : ∀ env transport after, outcome = .served env transport after → denied = none →
      stop ≠ some .inserted → stop ≠ some .announced → (Request.save saved).Stores env s.disk) :
    Consistent tools original (saveItem tools s saved stop denied outcome) := by
  obtain ⟨hrecord, hlate⟩ := h.fresh hitem
  have hstage : s.disk.stage = none := by
    have hinv := h.inv
    rw [Inv, hrecord] at hinv
    exact hinv.2.1
  have hnone : NoSaves s.late := by
    rw [hlate]
    intro saved hmem
    cases hmem
  -- Nothing is on the node, so an item that is not retained is right.
  have hunsent (item : Item) (hstate : item.state ≠ .succeeded) :
      Consistent tools original { s with item := some item } := by
    refine ⟨h.inv, fun hfalse => (by cases hfalse), ?_, ?_, ?_, ?_⟩
    · rintro found ⟨⟩ -
      exact ⟨hstage, fun _ => hnone⟩
    · rintro found ⟨⟩ hsucceeded
      exact absurd hsucceeded hstate
    · rintro found ⟨⟩ -
      exact .inl ⟨hrecord, hnone⟩
    · rintro found ⟨⟩ -
      exact ⟨hrecord, hnone⟩
  unfold Editor.saveItem
  by_cases hinserted : stop = some .inserted
  · rw [if_pos hinserted]
    exact hunsent _ (by simp)
  rw [if_neg hinserted]
  cases denied with
  | some error => exact hunsent _ (by simp)
  | none =>
    dsimp only
    set sent : System := { s with item := some ⟨.unknown, true, false⟩ }
    have hannouncing : Consistent tools original sent := hunsent _ (by simp)
    by_cases hannounced : stop = some .announced
    · rw [if_pos hannounced]
      exact hannouncing
    rw [if_neg hannounced]
    obtain ⟨hafter, hreceipt⟩ := hannouncing.call rfl (fun env transport after houtcome =>
      hstores env transport after houtcome rfl hinserted hannounced) fun _ _ => ⟨rfl, by simp, by simp⟩
    by_cases hreplied : stop = some .replied
    · rw [if_pos hreplied]
      exact hafter
    rw [if_neg hreplied]
    cases hresult : (Editor.call tools sent true (.save saved) outcome).2 with
    | ok reply =>
      cases reply with
      | none => exact hafter
      | some receipt =>
        obtain ⟨record, hfound, rfl⟩ := hreceipt receipt hresult
        exact hafter.apply hfound
    | error error =>
      dsimp only [recordReply, Item.afterError]
      by_cases hrefuses : Refuses error
      · obtain ⟨hdisk, hlater⟩ := call_of_refuses (s := sent) hrecord hnone hrefuses hresult
        rw [if_pos hrefuses]
        refine ⟨hafter.inv, fun hfalse => (by cases hfalse), ?_, ?_, ?_, ?_⟩
        · rintro found ⟨⟩ -
          exact ⟨by rw [hdisk]; exact hstage, fun _ => hlater⟩
        · rintro found ⟨⟩ ⟨⟩
        · rintro found ⟨⟩ -
          exact .inl ⟨by rw [hdisk]; exact hrecord, hlater⟩
        · rintro found ⟨⟩ ⟨⟩
      · have hsame : (Editor.call tools sent true (.save saved) outcome).1.item =
            some ⟨.unknown, true, false⟩ := call_item true _ outcome
        rw [if_neg hrefuses, ← hsame]
        exact hafter

/-- A call about an item, of which a receipt is taken over. -/
theorem Consistent.callItem (h : Consistent tools original s) {item : Item}
    (hitem : s.item = some item) {write : Bool} {outcome : Outcome}
    (hsave : ∀ saved, request ≠ .save saved) :
    Consistent tools original (match Editor.call tools s write request outcome with
      | (s, .ok (some receipt)) => { s with item := some receipt.item }
      | (s, _) => s) := by
  have hstores : ∀ env, request.Stores env s.disk := by
    intro env
    cases request with
    | save saved => exact absurd rfl (hsave saved)
    | _ => trivial
  have hcalled := fun write outcome => @Consistent.call tools original s request h item hitem write
    outcome (fun env _ _ _ => hstores env) fun saved hsaved => absurd hsaved (hsave saved)
  obtain ⟨hafter, hreceipt⟩ := hcalled write outcome
  split
  · next s' receipt hcall =>
    rw [hcall] at hafter hreceipt
    obtain ⟨record, hfound, rfl⟩ := hreceipt receipt rfl
    exact hafter.apply hfound
  · next s' result hcall =>
    rw [hcall] at hafter
    exact hafter

/-- So does a question about it. -/
theorem Consistent.statusItem (h : Consistent tools original s) {item : Item}
    (hitem : s.item = some item) (outcome : Outcome) :
    Consistent tools original (statusItem tools s item outcome) := by
  unfold Editor.statusItem
  split
  · next hstate =>
    refine ⟨h.inv, fun hfalse => (nomatch hfalse), ?_, ?_, ?_, ?_⟩
    · rintro found ⟨⟩ hretained
      exact h.retained hitem hretained
    · rintro found ⟨⟩ ⟨⟩
    · rintro found ⟨⟩ -
      exact .inl (h.pending hitem hstate)
    · rintro found ⟨⟩ ⟨⟩
  · exact h.callItem hitem fun saved => by simp
  · exact h

/-- A request whose reply was lost is served late. Only an item that waits has a save among them. -/
theorem Consistent.late (h : Consistent tools original s) {rest : List Request}
    (hlate : s.late = request :: rest) (hstores : request.Stores env s.disk) :
    Consistent tools original
      { s with disk := Editor.serve tools env request s.disk, late := rest } := by
  cases hitem : s.item with
  | none =>
    rw [(h.fresh hitem).2] at hlate
    cases hlate
  | some item =>
    have hfewer : NoSaves s.late → NoSaves rest := by
      rw [hlate]
      exact fun hsaves saved hmem => hsaves saved (List.mem_cons_of_mem _ hmem)
    rw [← hitem]
    refine h.serve hstores hitem (fun hrecord saved hsaved => ?_) hfewer
    have hmem : ¬NoSaves s.late := by
      rw [hlate, hsaved]
      exact fun hsaves => hsaves saved List.mem_cons_self
    refine ⟨?_, fun hfailed => ?_, fun hpending => ?_⟩
    · by_contra hretained
      exact hmem ((h.retained hitem (by simpa using hretained)).2 hrecord)
    · rcases h.failed hitem hfailed with ⟨-, hsaves⟩ | ⟨hsome, -⟩
      · exact hmem hsaves
      · rw [hrecord] at hsome
        cases hsome
    · exact hmem (h.pending hitem hpending).2

/-- So does every careful event. -/
theorem Consistent.step (h : Consistent tools original s) {event : Event}
    (hcareful : Careful s event) : Consistent tools original (step tools s event) := by
  have hfewer {late : List Request} (hlate : ∀ request ∈ late, request ∈ s.late) :
      Consistent tools original { s with late := late } := by
    cases hitem : s.item with
    | none =>
      obtain rfl : late = s.late := by
        rw [(h.fresh hitem).2] at hlate ⊢
        exact List.eq_nil_iff_forall_not_mem.mpr fun request hmem => by simpa using hlate _ hmem
      rw [← hitem]
      exact h
    | some item =>
      rw [← hitem]
      exact h.lost hitem fun _ hsaves saved hmem => hsaves saved (hlate _ hmem)
  unfold Editor.step
  cases event with
  | save saved stop denied outcome =>
    dsimp only
    split
    · next hitem =>
      refine h.saveItem hitem ?_
      rintro env transport after rfl hdenied hinserted hannounced
      exact hcareful env (.save saved) ⟨rfl, .inl ⟨rfl, hitem, hdenied, hinserted, hannounced⟩⟩
    · next item hitem => exact h.statusItem hitem outcome
  | status outcome =>
    dsimp only
    split
    · exact h
    · next item hitem => exact h.statusItem hitem outcome
  | recovery copy outcome =>
    dsimp only
    split
    · exact h
    · next item hitem =>
      have hcall := @Consistent.call tools original s (.recovery copy) h item hitem false outcome
        (fun _ _ _ _ => trivial) fun saved hsaved => (nomatch hsaved)
      exact hcall.1
  | cleanup readOnly confirm recovered outcome =>
    dsimp only
    split
    · exact h
    · next item hitem => exact h.callItem hitem fun saved => by simp
  | late env =>
    dsimp only
    split
    · exact h
    · next request rest hlate =>
      exact h.late hlate (hcareful env request ⟨rfl, by rw [hlate]; rfl⟩)
  | drop => exact hfewer fun request hmem => List.mem_of_mem_tail hmem
  | rotate => exact hfewer fun request hmem => List.mem_rotate.mp hmem

end Consistency

/-! ### The guarantees -/

/-- Both texts are on the disk: the original in the file or in the stage, and what was submitted in
the file or in the stage. -/
structure Kept (original : File) (disk : Disk) : Prop where
  original : disk.destination.data = original.data ∨
    disk.stage.bind (fun stage => stage.replacement.map File.data) = some original.data
  draft : disk.destination.data = disk.submitted ∨ disk.stage.bind Stage.draft = some disk.submitted

/-- The file has what was submitted. Until the edit is resolved the stage has the original. -/
def Published (original : File) (disk : Disk) (resolved : Bool) : Prop :=
  disk.destination.data = disk.submitted ∧ (resolved = false →
    disk.stage.bind (fun stage => stage.replacement.map File.data) = some original.data)

/-- What is reported is so: by every reply of the node, and by the item of the controller. -/
structure Truthful (tools : Tools) (original : File) (s : System) : Prop where
  replies : ∀ env request receipt, request.Stores env s.disk →
    (dispatch tools env request s.disk).result = .ok (some receipt) →
      (receipt.state = .succeeded →
        Published original (serve tools env request s.disk) receipt.resolved) ∧
      (receipt.state = .failed → (serve tools env request s.disk).destination = original)
  succeeded : ∀ item, s.item = some item → item.state = .succeeded →
    ∃ record, s.disk.record = some record ∧ Published original s.disk record.resolved
  failed : ∀ item, s.item = some item → item.state = .failed → s.disk.destination = original

section Guarantees

variable {tools : Tools} {original : File} {s : System} {disk : Disk} {record : Record}

theorem Sound.kept (h : Sound tools original disk record) (hresolved : record.resolved = false) :
    Kept original disk := by
  cases h.phase with
  | before hstate hdestination hexchanges hdraft =>
    obtain ⟨replacement, hstage⟩ := hdraft hresolved
    exact ⟨.inl (by rw [hdestination]), .inr (by rw [hstage]; rfl)⟩
  | announced new hstate _ hdestination hexchanges hstage hdata hnew =>
    exact ⟨.inl (by rw [hdestination]), .inr (by rw [hstage]; rfl)⟩
  | published hstate hdata hexchanges hnew hstage =>
    obtain ⟨ctime, hfiles⟩ := hstage hresolved
    exact ⟨.inr (by rw [hfiles]; rfl), .inl hdata⟩

/-- A success is published. -/
theorem Sound.published (h : Sound tools original disk record)
    (hstate : record.state = .succeeded) : Published original disk record.resolved := by
  cases h.phase with
  | before hphase => simp [hstate] at hphase
  | announced new hphase => simp [hstate] at hphase
  | published hphase hdata hexchanges hnew hstage =>
    refine ⟨hdata, fun hresolved => ?_⟩
    obtain ⟨ctime, hfiles⟩ := hstage hresolved
    rw [hfiles]
    rfl

/-- The files change places at most once. -/
theorem Inv.exchanges_le (h : Inv tools original disk) : disk.exchanges ≤ 1 := by
  cases hrecord : disk.record with
  | none =>
    rw [Inv, hrecord] at h
    omega
  | some record =>
    cases (h.sound hrecord).phase with
    | before _ _ hexchanges => omega
    | announced _ _ _ _ hexchanges => omega
    | published _ _ hexchanges => omega

/-- The controller tells the truth. -/
theorem Consistent.truthful (h : Consistent tools original s) : Truthful tools original s := by
  refine ⟨fun env request receipt hstores hresult => ?_, fun item hitem hstate => ?_,
    fun item hitem hstate => ?_⟩
  · obtain ⟨record, hreported, rfl⟩ := replies_serve h.inv hstores hresult
    obtain hrecord | ⟨hfailed, hdestination, -⟩ := hreported
    · have hsound := (served_serve h.inv hstores).inv.sound hrecord
      exact ⟨hsound.published, hsound.unchanged⟩
    · refine ⟨fun hsucceeded => ?_, fun _ => hdestination⟩
      cases hfailed.symm.trans hsucceeded
  · obtain ⟨record, hrecord, hsucceeded⟩ := h.succeeded hitem hstate
    exact ⟨record, hrecord, (h.inv.sound hrecord).published hsucceeded⟩
  · rcases h.failed hitem hstate with ⟨hrecord, -⟩ | ⟨-, hdestination⟩
    · have hinv := h.inv
      rw [Inv, hrecord] at hinv
      exact hinv.1
    · exact hdestination

theorem call_disk (write : Bool) (request : Request) (outcome : Outcome) :
    (call tools s write request outcome).1.disk = s.disk ∨ ∃ env transport after,
      outcome = .served env transport after ∧
        (call tools s write request outcome).1.disk = serve tools env request s.disk := by
  cases outcome with
  | refused error => exact .inl rfl
  | lost => exact .inl rfl
  | served env transport after => exact .inr ⟨env, transport, after, rfl, rfl⟩

theorem recordReply_disk (item : Item) (result : Except Error (Option Receipt)) :
    (recordReply s item result).disk = s.disk := by
  unfold recordReply
  split <;> rfl

/-- The disk changes only by what the node serves in the event. -/
theorem step_disk (event : Event) :
    (step tools s event).disk = s.disk ∨ ∃ env request, event.Serves s env request ∧
      (step tools s event).disk = serve tools env request s.disk := by
  have hstatus (item : Item) (outcome : Outcome) :
      (statusItem tools s item outcome).disk = s.disk ∨ ∃ env transport after,
        outcome = .served env transport after ∧
          (statusItem tools s item outcome).disk = serve tools env .status s.disk := by
    unfold statusItem
    split
    · exact .inl rfl
    · have hcall := @call_disk tools s false .status outcome
      split <;> next hresult => rw [hresult] at hcall; exact hcall
    · exact .inl rfl
  cases event with
  | save saved stop denied outcome =>
    dsimp only [step]
    split
    · next hitem =>
      unfold saveItem
      by_cases hinserted : stop = some .inserted
      · rw [if_pos hinserted]
        exact .inl rfl
      rw [if_neg hinserted]
      cases denied with
      | some error => exact .inl rfl
      | none =>
        dsimp only
        by_cases hannounced : stop = some .announced
        · rw [if_pos hannounced]
          exact .inl rfl
        rw [if_neg hannounced]
        set sent : System := { s with item := some ⟨.unknown, true, false⟩ }
        have hdisk : (if stop = some .replied then (call tools sent true (.save saved) outcome).1
            else recordReply (call tools sent true (.save saved) outcome).1 ⟨.unknown, true, false⟩
              (call tools sent true (.save saved) outcome).2).disk =
              (call tools sent true (.save saved) outcome).1.disk := by
          split_ifs
          · rfl
          · exact recordReply_disk _ _
        rw [hdisk]
        rcases @call_disk tools sent true (.save saved) outcome with
          hsame | ⟨env, transport, after, rfl, hserved⟩
        · exact .inl hsame
        · exact .inr ⟨env, .save saved,
            ⟨rfl, .inl ⟨rfl, hitem, rfl, hinserted, hannounced⟩⟩, hserved⟩
    · next item hitem =>
      rcases hstatus item outcome with hsame | ⟨env, transport, after, rfl, hserved⟩
      · exact .inl hsame
      · exact .inr ⟨env, .status, ⟨rfl, .inr ⟨rfl, by simp [hitem]⟩⟩, hserved⟩
  | status outcome =>
    dsimp only [step]
    split
    · exact .inl rfl
    · next item hitem =>
      rcases hstatus item outcome with hsame | ⟨env, transport, after, rfl, hserved⟩
      · exact .inl hsame
      · exact .inr ⟨env, .status, ⟨rfl, rfl⟩, hserved⟩
  | recovery copy outcome =>
    dsimp only [step]
    split
    · exact .inl rfl
    · rcases @call_disk tools s false (.recovery copy) outcome with
        hsame | ⟨env, transport, after, rfl, hserved⟩
      · exact .inl hsame
      · exact .inr ⟨env, .recovery copy, ⟨rfl, rfl⟩, hserved⟩
  | cleanup readOnly confirm recovered outcome =>
    dsimp only [step]
    split
    · exact .inl rfl
    · have hdisk : (cleanupItem tools s readOnly confirm recovered outcome).disk =
          (call tools s true (.cleanup readOnly confirm recovered) outcome).1.disk := by
        unfold cleanupItem
        split <;> next hresult => rw [hresult]
      rw [hdisk]
      rcases @call_disk tools s true (.cleanup readOnly confirm recovered) outcome
        with hsame | ⟨env, transport, after, rfl, hserved⟩
      · exact .inl hsame
      · exact .inr ⟨env, .cleanup readOnly confirm recovered, ⟨rfl, rfl⟩, hserved⟩
  | late env =>
    dsimp only [step]
    split
    · exact .inl rfl
    · next request rest hlate => exact .inr ⟨env, request, ⟨rfl, by rw [hlate]; rfl⟩, rfl⟩
  | drop => exact .inl rfl
  | rotate => exact .inl rfl

end Guarantees

/-- An edit is resolved only by a confirmed cleanup, after its outcome is known. -/
def ResolvedByCleanup (tools : Tools) (s : System) (event : Event) : Prop :=
  ∀ record', (step tools s event).disk.record = some record' → record'.resolved = true →
    (∃ record, s.disk.record = some record ∧ record.resolved = true) ∨
      ∃ env request, event.Serves s env request ∧ request.Resolves s.disk

/-- What holds of the system after a run of an edit on the file. -/
structure NoLoss (tools : Tools) (original : File) (s : System) : Prop where
  kept : ∀ record, s.disk.record = some record → record.resolved = false → Kept original s.disk
  once : s.disk.exchanges ≤ 1
  truthful : Truthful tools original s
  retained : ∀ item, s.item = some item → item.retained = false → s.disk.stage = none

/-- An edit never loses a copy. In every run in which a save that the node journals is not
interrupted before its draft is written, both texts stay on the disk until a confirmed cleanup after
the outcome is known; the edit is published at most once; what is reported is so; and an item that is
not retained has no copy on the node. -/
theorem editor_never_loses (tools : Tools) (file : File) (events : List Event)
    (h : Along (step tools) Careful (.initial file) events) :
    NoLoss tools file (run (step tools) (.initial file) events) ∧
      Along (step tools) (ResolvedByCleanup tools) (.initial file) events := by
  have hinitial : Consistent tools file (.initial file) := .initial file
  have hkeeps : ∀ s event, Consistent tools file s → Careful s event →
      Consistent tools file (step tools s event) := fun s event hs hcareful => hs.step hcareful
  constructor
  · have hend : Consistent tools file (run (step tools) (.initial file) events) :=
      h.run_invariant hkeeps hinitial
    exact ⟨fun record hrecord hresolved => (hend.inv.sound hrecord).kept hresolved,
      hend.inv.exchanges_le, hend.truthful, fun item hitem hretained =>
        (hend.retained hitem hretained).1⟩
  · refine h.of_invariant hkeeps (fun s event hs hcareful record' hrecord' hresolved => ?_) hinitial
    rcases @step_disk tools s event with hsame | ⟨env, request, hserves, hserved⟩
    · exact .inl ⟨record', hsame ▸ hrecord', hresolved⟩
    · rw [hserved] at hrecord'
      have hrequest := served_serve hs.inv (hcareful env request hserves)
      exact (hrequest.resolved record' hrecord' hresolved).imp_right fun hresolves =>
        ⟨env, request, hserves, hresolves⟩

/-! ### Two saves -/

namespace Example

/-- A hash that tells the texts below apart. -/
def tools : Tools where
  sha256 data := (data.map UInt8.toNat).sum
  utf8 _ := true

def file : File := ⟨1, [97], 5, 6, 420, 1000, 1000, true⟩

def request : SaveRequest := ⟨false, file.identity, 97, [98, 99]⟩

def environment (writes : Copy → List Write) : Environment where
  fault _ := none
  writes := writes
  unreadable := false
  capacity := .ok ()
  now := 7
  inode := 0
  first := .draft

/-- The draft and the replacement are written, each in two parts. -/
def complete : Environment := environment fun _ => [.wrote 1, .wrote 1]

/-- The disk is full after the first byte of the draft. -/
def full : Environment := environment fun _ => [.wrote 1, .failed]

/-- A save whose reply is lost on the way, a question for its outcome, and a cleanup. -/
def events : List Event := [
  .save request (some .replied) none (.served complete none none),
  .status (.served complete none none),
  .cleanup false true false (.served complete none none)]

theorem careful : Along (step tools) Careful (.initial file) events := by
  have hstores : complete.Stores request.data := by decide
  refine ⟨?_, ?_, ?_, trivial⟩
  · rintro env sent ⟨rfl, ⟨rfl, -⟩ | ⟨rfl, -⟩⟩
    · exact fun _ => hstores
    · trivial
  · rintro env sent ⟨rfl, rfl⟩
    trivial
  · rintro env sent ⟨rfl, rfl⟩
    trivial

theorem editor_never_loses_cleanup :
    Along (step tools) Careful (.initial file) events ∧
      NoLoss tools file (run (step tools) (.initial file) events) ∧
      Along (step tools) (ResolvedByCleanup tools) (.initial file) events :=
  ⟨careful, editor_never_loses tools file events careful⟩

/-- The reply says that the draft is retained, and it is not. -/
theorem not_kept_full_disk :
    let s := step tools (.initial file) (.save request none none (.served full none none))
    s.item = some ⟨.failed, true, false⟩ ∧
      s.disk.record.map Record.message =
        some "The file could not be saved. The draft is retained." ∧
      s.disk.record.map Record.resolved = some false ∧ ¬Kept file s.disk := by
  refine ⟨by decide +kernel, by decide +kernel, by decide +kernel, fun hkept => ?_⟩
  have hlost : ¬((step tools (.initial file)
      (.save request none none (.served full none none))).disk.destination.data = [98, 99] ∨
      (step tools (.initial file) (.save request none none (.served full none none))).disk.stage.bind
        Stage.draft = some [98, 99]) := by decide +kernel
  have hsubmitted : (step tools (.initial file)
      (.save request none none (.served full none none))).disk.submitted = [98, 99] := by
    decide +kernel
  exact hlost (hsubmitted ▸ hkept.draft)

end Example

end Ficc.Editor
