import Ficc.Modules.Opening

/-!
# Installation and removal that are stopped

A package is settled when neither its row nor its files are there, or when the row is there and the
files verify. An installation publishes the files before it commits the row, so a stop in between
leaves files that the next installation of the same archive takes over, as long as it still fits the
limits. A removal deletes the files before it commits the deletion of the row, and nothing takes
over a row whose files do not verify.

Nothing is recovered unless the controller starts again, and it does not when the module storage has
too many packages. Files without a row are among them, and they may pile up.
-/

namespace Ficc.Modules

open Execution (Digest)
open Durable

section

variable [Format]

namespace Registry

/-- The package is absent, or present with verified files. -/
def Settled (s : Registry) (digest : Digest) : Prop :=
  (s.db.packages.lookup digest = none ∧ s.directories.lookup digest = none) ∨
    (s.Installed digest ∧ s.verify digest = .ok ())

/-- The package is settled, or `install` or `uninstall` settles it. -/
def Recovers (s : Registry) (digest : Digest) : Prop :=
  s.Settled digest ∨
    (∃ now archive, (cut (install now archive digest) s none).Settled digest) ∨
    ∃ now, (cut (uninstall now digest) s none).Settled digest

/-- The limits allow the installation of a package. -/
def Fits (s : Registry) (checked : Inspection) : Prop :=
  s.db.packages.entries.length < MAX_PACKAGES ∧
    ∃ used, s.storageBytes = .ok used ∧ used + checked.expandedBytes ≤ MAX_STORAGE

/-- There are files without a row that an installation can take over. -/
def Restorable (s : Registry) (digest : Digest) : Prop :=
  ∃ archive checked, inspectArchive archive = .ok checked ∧ checked.digest = digest ∧
    s.Fits checked ∧
    Modules.verify (s.directories.lookup digest) checked.manifest checked.manifestBytes = .ok ()

omit [Format] in
/-- The files of a package are published, and its row is not there. -/
def withFiles (s : Registry) (checked : Inspection) : Registry :=
  { s with directories := s.directories.insert checked.digest checked.published }

/-- A removal is stopped after it has begun to change the files and before the row is deleted. -/
def Halved (s : Registry) (digest : Digest) (n : Option ℕ) : Prop :=
  s.Installed digest ∧ s.lease digest = 0 ∧
    ∃ directory k, s.directories.lookup digest = some directory ∧ n = some k ∧
      2 ≤ k ∧ k ≤ (removals directory).length + 2

/-- The installation publishes a new package. -/
def Publishes (s : Registry) (archive : Bytes) (digest : Digest) (checked : Inspection) : Prop :=
  ¬s.Installed digest ∧ s.directories.lookup digest = none ∧
    inspectArchive archive = .ok checked ∧ checked.digest = digest ∧ s.Fits checked

/-- The controller starts after an installation that is stopped: there is room for what the
installation has added, which is a stage first and then a package. -/
def InstallStarts (s : Registry) (archive : Bytes) (digest : Digest) (n : Option ℕ)
    (interruption : Interruption) : Prop :=
  s.Startable ∧ ∀ checked, s.Publishes archive digest checked →
    ((∃ k, n = some k ∧ 1 ≤ k ∧ k ≤ checked.stageActions.length + 1) →
      interruption ≠ .failure true → room s.packageCount (s.stages.length + 1)) ∧
    ((∀ k, n = some k → checked.stageActions.length + 2 ≤ k) →
      room (s.packageCount + 1) s.stages.length)

/-- An installation that is stopped leaves nothing, or files that can be taken over. -/
def InstallSettles (s : Registry) (archive : Bytes) (digest : Digest) (n : Option ℕ) : Prop :=
  s.Installed digest ∨
    ((s.directories.lookup digest).isSome = true → s.reopened.Restorable digest) ∧
    (s.directories.lookup digest = none → ∀ checked, inspectArchive archive = .ok checked →
      checked.digest = digest → s.Fits checked → n = some (checked.stageActions.length + 2) →
      (s.withFiles checked).reopened.Restorable digest)

/-- When an installation that is stopped can be recovered from. -/
def InstallRecovers (s : Registry) (archive : Bytes) (digest : Digest) (n : Option ℕ)
    (interruption : Interruption) : Prop :=
  s.InstallStarts archive digest n interruption ∧ s.InstallSettles archive digest n

/-- A removal is not stopped before its files have been removed. -/
def Removes (s : Registry) (digest : Digest) (n : Option ℕ) : Prop :=
  s.Installed digest ∧ s.lease digest = 0 ∧
    ∃ directory, s.directories.lookup digest = some directory ∧
      ∀ k, n = some k → (removals directory).length + 2 < k

/-- The controller starts after a removal that is stopped, or that has made room. -/
def RemovalStarts (s : Registry) (digest : Digest) (n : Option ℕ) : Prop :=
  s.Startable ∨ s.Removes digest n ∧ room (s.packageCount - 1) s.stages.length

/-- A removal is not stopped halfway, and what has no row can be taken over. -/
def RemovalSettles (s : Registry) (digest : Digest) (n : Option ℕ) : Prop :=
  ¬s.Halved digest n ∧
    (¬s.Installed digest → (s.directories.lookup digest).isSome = true →
      s.reopened.Restorable digest)

/-- When a removal that is stopped can be recovered from. -/
def RemovalRecovers (s : Registry) (digest : Digest) (n : Option ℕ) : Prop :=
  s.RemovalStarts digest n ∧ s.RemovalSettles digest n

/-- The controller ends and is started again until it starts, and then the package recovers. -/
def Recovered (s : Registry) (digest : Digest) : Prop :=
  ∀ orders, ∃ n, (s.restarted orders n).opened = true ∧ (s.restarted orders n).Recovers digest

/-- The files of every package in the database verify. -/
def Sound (s : Registry) : Prop := ∀ digest, s.Installed digest → s.verify digest = .ok ()

/-- The step is not a removal that is stopped halfway. -/
def Careful (s : Registry) (step : Step) : Prop :=
  match step.event with
  | .uninstall _ digest => s.opened = true → ¬s.Halved digest (step.stopped.map Prod.fst)
  | _ => True

end Registry

/-! ### Files -/

section Files

variable {s t : Registry} {digest : Digest} {checked : Inspection}

omit [Format] in
theorem foldl_onStage (actions : List StageAction) (stage : Directory) (rest : List Directory) :
    actions.foldl (fun t action => Registry.onStage action t)
        { s with stages := stage :: rest } =
      { s with stages := actions.foldl StageAction.apply stage :: rest } := by
  induction actions generalizing stage with
  | nil => rfl
  | cons action actions ih => exact ih (action.apply stage)

/-- What `publish` leads through when the files are not there. -/
theorem publish_eq (h : s.directories.lookup checked.digest = none) :
    ∃ states, Registry.publish checked s = ⟨states ++ [s.withFiles checked], .ok ()⟩ ∧
      states.length = checked.stageActions.length + 1 ∧
      ∀ t ∈ states, t.db = s.db ∧ t.directories = s.directories ∧ t.opened = s.opened ∧
        t.stages.length = s.stages.length + 1 := by
  have hread : Registry.publish checked s = (do
      perform fun s => { s with stages := ⟨writable, []⟩ :: s.stages }
      each checked.stageActions fun action => perform (Registry.onStage action)
      perform (Registry.renameStage checked.digest) : Operation Unit) s := by
    rw [Registry.publish, bind_eq_of_read (p := disk) rfl]
    simp [h]
  obtain ⟨states, hstates, hlength, hlast⟩ := each_perform (ε := Error) checked.stageActions
    Registry.onStage { s with stages := ⟨writable, []⟩ :: s.stages }
  rw [foldl_onStage] at hlast
  have hframe : ∀ t ∈ states, t.db = s.db ∧ t.directories = s.directories ∧
      t.opened = s.opened ∧ t.stages.length = s.stages.length + 1 := by
    let kept : Registry → Prop := fun t => t.db = s.db ∧ t.directories = s.directories ∧
      t.opened = s.opened ∧ t.stages.length = s.stages.length + 1
    have hwp : wp (each checked.stageActions fun action =>
        (perform (Registry.onStage action) : Operation Unit)) (fun _ => kept) (fun _ => kept) kept
        { s with stages := ⟨writable, []⟩ :: s.stages } := by
      refine wp_each (I := kept) (fun action _ t ht => ?_) ⟨rfl, rfl, rfl, rfl⟩
      have hstage : kept (Registry.onStage action t) := by
        unfold Registry.onStage
        split
        · exact ht
        · next stage rest hstages =>
          obtain ⟨hdb, hdirectories, hopened, hlength⟩ := ht
          rw [hstages] at hlength
          exact ⟨hdb, hdirectories, hopened, hlength⟩
      exact wp_perform.mpr ⟨hstage, hstage⟩
    have hall := hwp.1
    rw [hstates] at hall
    exact hall
  refine ⟨{ s with stages := ⟨writable, []⟩ :: s.stages } :: states, ?_,
    by rw [List.length_cons, hlength], ?_⟩
  · rw [hread, bind_eq_of_ok (p := perform _) rfl, last_singleton, bind_eq_of_ok hstates, hlast]
    rfl
  · intro t ht
    rcases List.mem_cons.mp ht with rfl | ht
    · exact ⟨rfl, rfl, rfl, rfl⟩
    · exact hframe t ht

/-- The steps of an installation from the check of the limits on. -/
theorem installNew_eq {now : ℚ} (hfits : s.Fits checked)
    (hmanifest : Format.manifest checked.manifestBytes = some checked.manifest) :
    ∃ view, Registry.installNew now checked s = (do
      Registry.publish checked
      Registry.commit (s.db.install now checked)
      pure view : Operation View) s := by
  obtain ⟨hcount, used, hused, hroom⟩ := hfits
  have hview : ∃ view, (s.db.install now checked).get checked.digest = .ok view := by
    simp only [Database.get, Database.row, bind_eq_ok, orRaise_eq_ok]
    exact ⟨_, _, AList.lookup_insert _, _, hmanifest, rfl⟩
  obtain ⟨view, hview⟩ := hview
  refine ⟨view, ?_⟩
  rw [Registry.installNew, bind_eq_of_read (p := disk) rfl,
    bind_eq_of_read (refuseIf_neg (Nat.not_le.mpr hcount) _ s),
    bind_eq_of_read (p := check _) (congrArg (Course.mk []) hused),
    bind_eq_of_read (refuseIf_neg (Nat.not_lt.mpr hroom) _ s), hview]
  rfl

/-- An installation beyond the limits changes nothing. -/
theorem installNew_of_not_fits (now : ℚ) (hfits : ¬s.Fits checked) :
    ∃ error, Registry.installNew now checked s = ⟨[], .error error⟩ := by
  rw [Registry.installNew, bind_eq_of_read (p := disk) rfl]
  by_cases hcount : MAX_PACKAGES ≤ s.db.packages.entries.length
  · exact ⟨_, bind_eq_of_error (refuseIf_pos hcount _ s)⟩
  rw [bind_eq_of_read (refuseIf_neg hcount _ s)]
  cases hused : s.storageBytes with
  | error error => exact ⟨error, bind_eq_of_error rfl⟩
  | ok used =>
    have hroom : MAX_STORAGE < used + checked.expandedBytes := by
      by_contra hroom
      exact hfits ⟨Nat.lt_of_not_le hcount, used, hused, Nat.le_of_not_lt hroom⟩
    rw [bind_eq_of_read (p := check _) rfl]
    exact ⟨_, bind_eq_of_error (refuseIf_pos hroom _ s)⟩

/-- An installation of another archive, or of one that cannot be read, changes nothing. -/
theorem install_eq (now : ℚ) (archive : Bytes) (digest : Digest) (s : Registry) :
    (∃ error, Registry.install now archive digest s = ⟨[], .error error⟩) ∨
      ∃ checked, inspectArchive archive = .ok checked ∧ checked.digest = digest ∧
        Registry.install now archive digest s =
          (if (s.db.packages.lookup digest).isSome then (do
            check (s.verify digest)
            check (s.db.get digest)) else Registry.installNew now checked : Operation View) s := by
  rw [Registry.install]
  cases hchecked : inspectArchive archive with
  | error error => exact .inl ⟨error, bind_eq_of_error rfl⟩
  | ok checked =>
    rw [bind_eq_of_read (p := check _) rfl]
    by_cases hdigest : checked.digest = digest
    · refine .inr ⟨checked, rfl, hdigest, ?_⟩
      rw [bind_eq_of_read (refuseIf_neg (not_not.mpr hdigest) _ s),
        bind_eq_of_read (p := disk) rfl, hdigest]
    · exact .inl ⟨_, bind_eq_of_error (refuseIf_pos hdigest _ s)⟩

/-- An installation of a package that has a row changes nothing. -/
theorem cut_install_of_installed (h : s.Installed digest) (now : ℚ) (archive : Bytes)
    (n : Option ℕ) : cut (Registry.install now archive digest) s n = s := by
  rcases install_eq now archive digest s with ⟨error, hraised⟩ | ⟨checked, -, -, hinstall⟩
  · exact cut_of_read hraised n
  · have hrow : (s.db.packages.lookup digest).isSome = true := h
    rw [cut_congr hinstall, if_pos hrow]
    have hread : ∃ result, (do
        check (s.verify digest)
        check (s.db.get digest) : Operation View) s = ⟨[], result⟩ := by
      cases hverify : s.verify digest with
      | error error => exact ⟨_, bind_eq_of_error rfl⟩
      | ok u => exact ⟨_, bind_eq_of_read (p := check _) rfl⟩
    obtain ⟨result, hread⟩ := hread
    exact cut_of_read hread n

omit [Format] in
/-- The registry after an installation. -/
def installedState (s : Registry) (now : ℚ) (checked : Inspection) : Registry :=
  { s with db := s.db.install now checked }

omit [Format] in
/-- A commit has happened, or nothing has. -/
theorem cut_commit (db : Database) {α : Type} (a : α) (n : Option ℕ) :
    cut (do
      Registry.commit db
      pure a : Operation α) s n = if n = some 0 then s else { s with db := db } := by
  rw [← cut_perform (ε := Error) fun s : Registry => { s with db := db }]
  cases n <;> rfl

variable {archive : Bytes} {row : Package} {directory : Directory}

/-- A package without a row that is read and fits. -/
theorem install_eq_publish (hrow : s.db.packages.lookup checked.digest = none)
    (hchecked : inspectArchive archive = .ok checked) (hfits : s.Fits checked) (now : ℚ) :
    ∃ view, Registry.install now archive checked.digest s = (do
      Registry.publish checked
      Registry.commit (s.db.install now checked)
      pure view : Operation View) s := by
  rw [Registry.install, hchecked, bind_eq_of_read (p := check _) rfl,
    bind_eq_of_read (refuseIf_neg (not_not.mpr rfl) _ s), bind_eq_of_read (p := disk) rfl,
    if_neg (by simp [hrow])]
  exact installNew_eq hfits (inspectArchive_checked hchecked).1.manifest

/-- A package without a row that is not read or does not fit. -/
theorem cut_install_refused (hrow : s.db.packages.lookup digest = none) (now : ℚ)
    (h : ∀ checked, inspectArchive archive = .ok checked → checked.digest = digest → ¬s.Fits checked)
    (n : Option ℕ) : cut (Registry.install now archive digest) s n = s := by
  rcases install_eq now archive digest s with ⟨error, hraised⟩ | ⟨checked, hok, hdigest, hinstall⟩
  · exact cut_of_read hraised n
  · obtain ⟨error, hraised⟩ := installNew_of_not_fits now (h checked hok hdigest)
    rw [if_neg (by simp [hrow]), hraised] at hinstall
    exact cut_of_read hinstall n

/-- Files that are there are verified before the row is committed. -/
theorem cut_install_orphan (hrow : s.db.packages.lookup checked.digest = none)
    (hfiles : (s.directories.lookup checked.digest).isSome = true)
    (hchecked : inspectArchive archive = .ok checked) (hfits : s.Fits checked) (now : ℚ)
    (n : Option ℕ) :
    cut (Registry.install now archive checked.digest) s n =
      if n ≠ some 0 ∧ Modules.verify (s.directories.lookup checked.digest) checked.manifest
          checked.manifestBytes = .ok () then installedState s now checked else s := by
  obtain ⟨view, hinstall⟩ := install_eq_publish hrow hchecked hfits now
  rw [cut_congr hinstall]
  have hpublish : Registry.publish checked s = ⟨[], Modules.verify
      (s.directories.lookup checked.digest) checked.manifest checked.manifestBytes⟩ := by
    rw [Registry.publish, bind_eq_of_read (p := disk) rfl, if_pos hfiles]
    rfl
  cases hverify : Modules.verify (s.directories.lookup checked.digest) checked.manifest
      checked.manifestBytes with
  | error error =>
    rw [hverify] at hpublish
    rw [if_neg (by simp)]
    exact cut_of_read (bind_eq_of_error hpublish) n
  | ok u =>
    rw [hverify] at hpublish
    rw [cut_congr (bind_eq_of_read hpublish), cut_commit]
    by_cases hn : n = some 0 <;> simp [hn, installedState]

/-- A package without files is published before the row is committed: the installation is stopped
before it begins, with a stage, with the files in their place, or after the commit. -/
theorem cut_install_fresh (hrow : s.db.packages.lookup checked.digest = none)
    (hfiles : s.directories.lookup checked.digest = none)
    (hchecked : inspectArchive archive = .ok checked) (hfits : s.Fits checked) (now : ℚ)
    (n : Option ℕ) :
    let t := cut (Registry.install now archive checked.digest) s n
    (n = some 0 ∧ t = s) ∨
      ((∃ k, n = some k ∧ 1 ≤ k ∧ k ≤ checked.stageActions.length + 1) ∧ t.db = s.db ∧
        t.directories = s.directories ∧ t.opened = s.opened ∧
        t.stages.length = s.stages.length + 1) ∨
      (n = some (checked.stageActions.length + 2) ∧ t = s.withFiles checked) ∨
      ((∀ k, n = some k → checked.stageActions.length + 2 < k) ∧
        t = { s.withFiles checked with db := s.db.install now checked }) := by
  intro t
  obtain ⟨view, hinstall⟩ := install_eq_publish hrow hchecked hfits now
  obtain ⟨states, hpublish, hlength, hframe⟩ := publish_eq hfiles
  have ht : t = cut (do
      Registry.publish checked
      Registry.commit (s.db.install now checked)
      pure view : Operation View) s n := cut_congr hinstall n
  have hall : (states ++ [s.withFiles checked]).length = checked.stageActions.length + 2 := by
    rw [List.length_append, hlength, List.length_singleton]
  by_cases hbefore : ∃ k, n = some k ∧ k ≤ checked.stageActions.length + 1
  · obtain ⟨k, rfl, hk⟩ := hbefore
    rw [cut_bind_of_le (by rw [hpublish, hall]; omega)] at ht
    rcases Nat.eq_zero_or_pos k with rfl | hpos
    · exact .inl ⟨rfl, ht⟩
    · refine .inr (.inl ⟨⟨k, rfl, hpos, hk⟩, hframe t ?_⟩)
      have hsome : states.take k ≠ [] := by
        rw [Ne, List.take_eq_nil_iff]
        rintro (hzero | hnil)
        · omega
        · rw [hnil, List.length_nil] at hlength
          omega
      have hlast : last s (states.take k) ∈ states.take k := by
        rw [last, List.getLastD_eq_getLast?, List.getLast?_eq_some_getLast hsome]
        exact List.getLast_mem hsome
      rw [ht, cut, hpublish, List.take_append_of_le_length (by omega)]
      exact List.mem_of_mem_take hlast
  · right
    right
    rw [cut_bind_of_ok hpublish, last_append, last_singleton, cut_commit, hall] at ht
    · by_cases hn : n = some (checked.stageActions.length + 2)
      · left
        refine ⟨hn, ?_⟩
        rw [ht, hn, if_pos (by simp)]
      · right
        have hlate : ∀ k, n = some k → checked.stageActions.length + 2 < k := by
          intro k hk
          by_contra hless
          refine hbefore ⟨k, hk, ?_⟩
          have hne : k ≠ checked.stageActions.length + 2 := fun heq => hn (heq ▸ hk)
          omega
        refine ⟨hlate, ?_⟩
        rw [ht, if_neg]
        intro hzero
        obtain ⟨k, rfl, hk⟩ := Option.map_eq_some_iff.mp hzero
        have hpast := hlate k rfl
        omega
    · intro k hk
      rw [hall]
      by_contra hless
      exact hbefore ⟨k, hk, by omega⟩

/-- The verification of a package depends on its manifest and its files. -/
theorem verify_congr {row' : Package} (hrow : s.db.packages.lookup digest = some row)
    (hrow' : t.db.packages.lookup digest = some row') (hmanifest : row'.manifest = row.manifest)
    (hfiles : t.directories.lookup digest = s.directories.lookup digest) :
    t.verify digest = s.verify digest := by
  simp only [Registry.verify, Database.row, hrow, hrow', orRaise, ok_bind, hmanifest, hfiles]

omit [Format] in
/-- The registry after a package has been revoked. -/
def revokedState (s : Registry) (digest : Digest) (entry : History) : Registry :=
  { s with db := (s.db.disable digest).addHistory entry }

omit [Format] in
/-- A revocation disables the row. -/
theorem lookup_revokedState (s : Registry) (digest : Digest) (entry : History) :
    (revokedState s digest entry).db.packages.lookup digest =
      (s.db.packages.lookup digest).map Package.disabled := by
  refine (Database.lookup_disable s.db digest digest).trans ?_
  rw [if_pos rfl]

omit [Format] in
theorem installed_revokedState {entry : History} :
    (revokedState s digest entry).Installed digest ↔ s.Installed digest := by
  rw [Registry.Installed, lookup_revokedState, Option.isSome_map, Registry.Installed]

theorem verify_revokedState {entry : History} (h : s.Installed digest) :
    (revokedState s digest entry).verify digest = s.verify digest := by
  obtain ⟨row, hrow⟩ := Option.isSome_iff_exists.mp h
  have hrow' : (revokedState s digest entry).db.packages.lookup digest = some row.disabled := by
    rw [lookup_revokedState, hrow, Option.map_some]
  exact verify_congr hrow hrow' rfl rfl

/-- What verifies is installed. -/
theorem installed_of_verify (h : s.verify digest = .ok ()) : s.Installed digest := by
  simp only [Registry.verify, Database.row, bind_eq_ok, orRaise_eq_ok] at h
  obtain ⟨row, hrow, -⟩ := h
  exact Option.isSome_iff_exists.mpr ⟨row, hrow⟩

/-- A revocation is refused, or it is one commit. -/
theorem revoke_eq (now : ℚ) (s : Registry) (digest : Digest) :
    (∃ error, Registry.revoke now digest s = ⟨[], .error error⟩) ∨
      ∃ entry view, Registry.revoke now digest s = ⟨[revokedState s digest entry], .ok view⟩ := by
  rw [Registry.revoke, Registry.setEnabled, bind_eq_of_read (p := disk) rfl]
  cases hdb : s.enabling now digest false none false (.ok ()) with
  | error error => exact .inl ⟨error, bind_eq_of_error rfl⟩
  | ok db =>
    simp only [Registry.enabling, bind_eq_ok] at hdb
    obtain ⟨current, -, accepted, -, hdb⟩ := hdb
    cases hdb
    rw [bind_eq_of_read (p := check _) rfl]
    generalize hnext : Database.addHistory _ _ = db
    cases hview : db.get digest with
    | error error => exact .inl ⟨error, bind_eq_of_error rfl⟩
    | ok view =>
      refine .inr ⟨⟨current.manifest.id, some digest, some digest, .disable, now⟩, view, ?_⟩
      rw [bind_eq_of_read (p := check _) rfl, ← hnext]
      rfl

/-- A package that has a readable row can be revoked. -/
theorem revoke_of_verify (now : ℚ) (h : s.verify digest = .ok ()) :
    ∃ entry view, Registry.revoke now digest s = ⟨[revokedState s digest entry], .ok view⟩ := by
  simp only [Registry.verify, Database.row, bind_eq_ok, orRaise_eq_ok] at h
  obtain ⟨row, hrow, manifest, hmanifest, -⟩ := h
  have hget : s.db.get digest = .ok ⟨digest, manifest, row.enabled, row.revision, row.installed,
      s.db.grantsOf digest⟩ := by
    simp [Database.get, Database.row, hrow, orRaise, hmanifest, pure, Except.pure]
  have hget' (entry : History) : ∃ view,
      (revokedState s digest entry).db.get digest = .ok view := by
    simp only [Database.get, Database.row, lookup_revokedState, hrow, Option.map_some, orRaise,
      ok_bind, Package.disabled, hmanifest]
    exact ⟨_, rfl⟩
  rcases revoke_eq now s digest with ⟨error, hraised⟩ | hrevoked
  · exfalso
    have hdb : s.enabling now digest false none false (.ok ()) =
        .ok (revokedState s digest ⟨manifest.id, some digest, some digest, .disable, now⟩).db := by
      rw [Registry.enabling, hget]
      rfl
    obtain ⟨view, hview⟩ := hget' ⟨manifest.id, some digest, some digest, .disable, now⟩
    rw [Registry.revoke, Registry.setEnabled, bind_eq_of_read (p := disk) rfl, hdb,
      bind_eq_of_read (p := check _) rfl, hview, bind_eq_of_read (p := check _) rfl] at hraised
    cases hraised
  · exact hrevoked

/-- A package without a row cannot be removed. -/
theorem cut_uninstall_missing (hrow : s.db.packages.lookup digest = none) (now : ℚ)
    (n : Option ℕ) : cut (Registry.uninstall now digest) s n = s := by
  have hget : s.db.get digest = .error Database.missing := by
    rw [Database.get, Database.row, hrow]
    rfl
  have hraised : Registry.revoke now digest s = ⟨[], .error Database.missing⟩ := by
    rw [Registry.revoke, Registry.setEnabled, bind_eq_of_read (p := disk) rfl, Registry.enabling,
      hget]
    rfl
  exact cut_of_read (bind_eq_of_error hraised) n

/-- The part of a removal after the package is revoked. -/
def removal (now : ℚ) (digest : Digest) : Operation Unit := do
  let s ← disk
  refuseIf (0 < (s.leases.lookup digest).getD 0)
    (.failure "module_busy" "Stop active module operations before removal." 409)
  let current ← check (s.db.get digest)
  check (s.verify digest)
  Registry.removeFiles digest
  Registry.commit (s.db.uninstall now current.manifest.id digest)

/-- A leased or altered package is not removed. -/
theorem removal_refused (now : ℚ) (h : ¬(s.lease digest = 0 ∧ s.verify digest = .ok ())) :
    ∃ error, removal now digest s = ⟨[], .error error⟩ := by
  rw [removal, bind_eq_of_read (p := disk) rfl]
  by_cases hlease : 0 < (s.leases.lookup digest).getD 0
  · exact ⟨_, bind_eq_of_error (refuseIf_pos hlease _ s)⟩
  rw [bind_eq_of_read (refuseIf_neg hlease _ s)]
  cases hget : s.db.get digest with
  | error error => exact ⟨error, bind_eq_of_error rfl⟩
  | ok current =>
    rw [bind_eq_of_read (p := check _) rfl]
    cases hverify : s.verify digest with
    | error error => exact ⟨error, bind_eq_of_error rfl⟩
    | ok u => exact absurd ⟨Nat.eq_zero_of_not_pos hlease, hverify⟩ h

/-- Else its files go first and then its rows. -/
theorem removal_eq (now : ℚ) (hlease : s.lease digest = 0) (hverify : s.verify digest = .ok ()) :
    ∃ packageId, removal now digest s = (do
      Registry.removeFiles digest
      Registry.commit (s.db.uninstall now packageId digest) : Operation Unit) s := by
  have hget : ∃ current, s.db.get digest = .ok current := by
    simp only [Registry.verify, Database.row, bind_eq_ok, orRaise_eq_ok] at hverify
    obtain ⟨row, hrow, manifest, hmanifest, -⟩ := hverify
    simp only [Database.get, Database.row, bind_eq_ok, orRaise_eq_ok]
    exact ⟨_, row, hrow, manifest, hmanifest, rfl⟩
  obtain ⟨current, hget⟩ := hget
  have hfree : ¬0 < (s.leases.lookup digest).getD 0 := Nat.not_lt.mpr (Nat.le_of_eq hlease)
  refine ⟨current.manifest.id, ?_⟩
  rw [removal, bind_eq_of_read (p := disk) rfl, bind_eq_of_read (refuseIf_neg hfree _ s), hget,
    bind_eq_of_read (p := check _) rfl, hverify, bind_eq_of_read (p := check _) rfl]

/-- A removal that is refused leaves the package as it is, or revoked. -/
theorem cut_uninstall_refused (now : ℚ) (h : ¬(s.lease digest = 0 ∧ s.verify digest = .ok ()))
    (n : Option ℕ) :
    cut (Registry.uninstall now digest) s n = s ∨
      ∃ entry, cut (Registry.uninstall now digest) s n = revokedState s digest entry := by
  rcases revoke_eq now s digest with ⟨error, hraised⟩ | ⟨entry, view, hrevoked⟩
  · exact .inl (cut_of_read (bind_eq_of_error hraised) n)
  · have hsame : ¬((revokedState s digest entry).lease digest = 0 ∧
        (revokedState s digest entry).verify digest = .ok ()) := by
      rintro ⟨hlease, hverify⟩
      have hinstalled : s.Installed digest :=
        installed_revokedState.mp (installed_of_verify hverify)
      exact h ⟨hlease, (verify_revokedState hinstalled).symm.trans hverify⟩
    obtain ⟨error, hremoval⟩ := removal_refused now hsame
    have hcourse : Registry.uninstall now digest s =
        ⟨[revokedState s digest entry], .error error⟩ := by
      refine (bind_eq_of_ok (f := fun _ => removal now digest) hrevoked).trans ?_
      rw [last_singleton, hremoval]
      rfl
    rcases cut_mem (Registry.uninstall now digest) s n with hs | hmem
    · exact .inl hs
    · rw [hcourse, List.mem_singleton] at hmem
      exact .inr ⟨entry, hmem⟩

/-- The files of the package have been opened for removal, but the row is there. -/
def Broken (s : Registry) (digest : Digest) : Prop :=
  s.Installed digest ∧ s.verify digest ≠ .ok ()

theorem broken_of_mode (hrow : t.db.packages.lookup digest = some row)
    (hfiles : t.directories.lookup digest = some directory) (hmode : directory.mode = writable) :
    Broken t digest := by
  refine ⟨Option.isSome_iff_exists.mpr ⟨row, hrow⟩, fun hverify => ?_⟩
  simp only [Registry.verify, Database.row, bind_eq_ok, orRaise_eq_ok] at hverify
  obtain ⟨_, -, manifest, -, hverify⟩ := hverify
  rw [hfiles] at hverify
  have hclosed := mode_of_verify hverify
  rw [hmode] at hclosed
  exact absurd hclosed (by decide)

/-- A row without files is broken. -/
theorem broken_of_none (hrow : t.db.packages.lookup digest = some row)
    (hfiles : t.directories.lookup digest = none) : Broken t digest := by
  refine ⟨Option.isSome_iff_exists.mpr ⟨row, hrow⟩, fun hverify => ?_⟩
  simp only [Registry.verify, Database.row, bind_eq_ok, orRaise_eq_ok] at hverify
  obtain ⟨_, -, manifest, -, hverify⟩ := hverify
  rw [hfiles] at hverify
  exact verify_none _ _ hverify

omit [Format] in
/-- Every change of a removal but the first keeps the mode of the directory. -/
theorem mode_removals {found : Directory} {change : Directory → Directory}
    (h : change ∈ (Registry.removals directory).tail) : (change found).mode = found.mode := by
  simp only [Registry.removals, List.cons_append, List.tail_cons, List.mem_append,
    List.mem_map] at h
  rcases h with ⟨_, _, rfl⟩ | ⟨_, _, rfl⟩ <;> rfl

/-- What the removal of the files leads through. -/
theorem removeFiles_eq (hrow : s.db.packages.lookup digest = some row)
    (hfiles : s.directories.lookup digest = some directory) :
    ∃ states, Registry.removeFiles digest s = ⟨states, .ok ()⟩ ∧
      states.length = (Registry.removals directory).length + 1 ∧
      (∀ k, (last s states).directories.lookup k =
        if k = digest then none else s.directories.lookup k) ∧
      (last s states).stages = s.stages ∧ ∀ t ∈ states, Broken t digest := by
  let others : Registry → Prop := fun t => t.db = s.db ∧ t.stages = s.stages ∧
    ∀ k ≠ digest, t.directories.lookup k = s.directories.lookup k
  let opened : Registry → Prop := fun t =>
    others t ∧ ∃ found, t.directories.lookup digest = some found ∧ found.mode = writable
  have hothers (t : Registry) (ht : others t) (change : Directory → Directory) :
      others (Registry.onDirectory digest change t) := by
    refine ⟨ht.1, ht.2.1, fun k hk => ?_⟩
    rw [Registry.onDirectory, Table.lookup_modify, if_neg hk]
    exact ht.2.2 k hk
  -- The first change opens the directory, and the others leave it open.
  have hwp : wp (each (Registry.removals directory) fun change =>
      (perform (Registry.onDirectory digest change) : Operation Unit)) (fun _ => opened)
      (fun _ => opened) opened s := by
    have hfirst : opened (Registry.onDirectory digest
        (fun directory => { directory with mode := writable }) s) := by
      refine ⟨hothers s ⟨rfl, rfl, fun _ _ => rfl⟩ _, { directory with mode := writable }, ?_, rfl⟩
      rw [Registry.onDirectory, Table.lookup_modify, if_pos rfl, hfiles, Option.map_some]
    refine wp_bind.mpr (wp_perform.mpr ⟨hfirst, wp_each (I := opened) ?_ hfirst⟩)
    rintro change hchange t ⟨ht, found, hfound, hmode⟩
    have hnext : opened (Registry.onDirectory digest change t) := by
      refine ⟨hothers t ht change, change found, ?_, (mode_removals hchange).trans hmode⟩
      rw [Registry.onDirectory, Table.lookup_modify, if_pos rfl, hfound, Option.map_some]
    exact wp_perform.mpr ⟨hnext, hnext⟩
  obtain ⟨states, hstates, hlength, -⟩ := each_perform (ε := Error) (Registry.removals directory)
    (Registry.onDirectory digest) s
  obtain ⟨hduring, hend⟩ := hwp
  rw [hstates] at hduring hend
  obtain ⟨⟨hdb, hstages, hlookup⟩, -⟩ : opened (last s states) := hend
  let gone : Registry :=
    { last s states with directories := (last s states).directories.erase digest }
  have hgone : ∀ k, gone.directories.lookup k =
      if k = digest then none else s.directories.lookup k := by
    intro k
    refine (Table.lookup_erase_eq _ _ _).trans ?_
    by_cases hk : k = digest
    · rw [if_pos hk, if_pos hk]
    · rw [if_neg hk, if_neg hk, hlookup k hk]
  refine ⟨states ++ [gone], ?_, by rw [List.length_append, hlength, List.length_singleton], ?_, ?_,
    ?_⟩
  · rw [Registry.removeFiles, bind_eq_of_read (p := disk) rfl, hfiles,
      bind_eq_of_read (p := demand _ _) rfl, bind_eq_of_ok hstates]
    rfl
  · rw [last_append, last_singleton]
    exact hgone
  · rw [last_append, last_singleton]
    exact hstages
  · intro t ht
    rcases List.mem_append.mp ht with ht | ht
    · obtain ⟨⟨hsame, -⟩, found, hfound, hmode⟩ := hduring t ht
      exact broken_of_mode (hsame ▸ hrow) hfound hmode
    · obtain rfl := List.mem_singleton.mp ht
      have hkept : gone.db.packages.lookup digest = some row := by
        show (last s states).db.packages.lookup digest = some row
        rw [hdb]
        exact hrow
      exact broken_of_none hkept (by rw [hgone, if_pos rfl])

/-- A removal that is not refused: it is stopped before the files change, while they change, or
after the row has been deleted. -/
theorem cut_uninstall (now : ℚ) (hlease : s.lease digest = 0) (hverify : s.verify digest = .ok ())
    (hfiles : s.directories.lookup digest = some directory) (n : Option ℕ) :
    let t := cut (Registry.uninstall now digest) s n
    ((∃ k, n = some k ∧ k ≤ 1) ∧ (t = s ∨ ∃ entry, t = revokedState s digest entry)) ∨
      ((∃ k, n = some k ∧ 2 ≤ k ∧ k ≤ (Registry.removals directory).length + 2) ∧
        Broken t digest) ∨
      ((∀ k, n = some k → (Registry.removals directory).length + 2 < k) ∧
        (∃ entry packageId,
          t.db = ((s.db.disable digest).addHistory entry).uninstall now packageId digest) ∧
        (∀ k, t.directories.lookup k = if k = digest then none else s.directories.lookup k) ∧
        t.stages = s.stages) := by
  intro t
  have hinstalled := installed_of_verify hverify
  obtain ⟨entry, view, hrevoked⟩ := revoke_of_verify now hverify
  let revoked := revokedState s digest entry
  have hverify' : revoked.verify digest = .ok () := (verify_revokedState hinstalled).trans hverify
  obtain ⟨row, hrow⟩ := Option.isSome_iff_exists.mp (installed_of_verify hverify')
  obtain ⟨packageId, hremoval⟩ := removal_eq now (s := revoked) hlease hverify'
  obtain ⟨states, hremove, hlength, hlast, hstages, hbroken⟩ :=
    removeFiles_eq (s := revoked) hrow hfiles
  have ht : t = cut (Registry.revoke now digest >>= fun _ => removal now digest) s n := rfl
  by_cases hearly : ∃ k, n = some k ∧ k ≤ 1
  · obtain ⟨k, rfl, hk⟩ := hearly
    left
    refine ⟨⟨k, rfl, hk⟩, ?_⟩
    rw [cut_bind_of_le (by rw [hrevoked]; exact hk)] at ht
    rcases cut_mem (Registry.revoke now digest) s (some k) with hsame | hmem
    · exact .inl (ht.trans hsame)
    · rw [hrevoked, List.mem_singleton] at hmem
      exact .inr ⟨entry, ht.trans hmem⟩
  right
  have hlate : ∀ k, n = some k → 2 ≤ k := fun k hk => by
    by_contra hless
    exact hearly ⟨k, hk, by omega⟩
  rw [cut_bind_of_ok hrevoked (fun k hk => by have := hlate k hk; simp; omega), last_singleton,
    cut_congr hremoval] at ht
  by_cases hmiddle : ∃ k, n = some k ∧ 2 ≤ k ∧ k ≤ (Registry.removals directory).length + 2
  · left
    refine ⟨hmiddle, ?_⟩
    obtain ⟨k, rfl, hlower, hupper⟩ := hmiddle
    have hwithin : k - 1 ≤ (Registry.removeFiles digest revoked).states.length := by
      rw [hremove]
      show k - 1 ≤ states.length
      omega
    rw [Option.map_some, List.length_singleton, cut_bind_of_le hwithin] at ht
    rw [ht]
    have hsome : states ≠ [] := List.ne_nil_of_length_pos (by omega)
    have hmem := cut_mem_of_pos (p := Registry.removeFiles digest) (s := revoked) (n := k - 1)
      (by omega) (by rw [hremove]; exact hsome)
    rw [hremove] at hmem
    exact hbroken _ hmem
  · right
    have hpast : ∀ k, n = some k → (Registry.removals directory).length + 2 < k := by
      intro k hk
      by_contra hless
      exact hmiddle ⟨k, hk, hlate k hk, Nat.le_of_not_lt hless⟩
    have hover : ∀ k, n.map (fun k => k - [revoked].length) = some k → states.length < k := by
      intro k hk
      obtain ⟨k', rfl, rfl⟩ := Option.map_eq_some_iff.mp hk
      have hupper := hpast k' rfl
      rw [hlength, List.length_singleton]
      omega
    rw [cut_bind_of_ok hremove (fun k hk => (hover k hk).le), Registry.commit, cut_perform,
      if_neg] at ht
    · refine ⟨hpast, ⟨entry, packageId, by rw [ht]; rfl⟩, ?_, ?_⟩
      · rw [ht]
        exact hlast
      · rw [ht]
        exact hstages
    · intro hzero
      obtain ⟨k, hk, hless⟩ := Option.map_eq_some_iff.mp hzero
      have := hover k hk
      omega

omit [Format] in
/-- A stop of a removal whose files are known is halfway or it is not. -/
theorem halved_iff (hinstalled : s.Installed digest) (hlease : s.lease digest = 0)
    (hfiles : s.directories.lookup digest = some directory) (n : Option ℕ) : s.Halved digest n ↔
      ∃ k, n = some k ∧ 2 ≤ k ∧ k ≤ (Registry.removals directory).length + 2 := by
  constructor
  · rintro ⟨-, -, found, k, hfound, hk⟩
    rw [hfiles] at hfound
    cases hfound
    exact ⟨k, hk⟩
  · rintro ⟨k, hk⟩
    exact ⟨hinstalled, hlease, directory, k, hfiles, hk⟩

end Files

/-! ### Recovery -/

section Recovery

variable {s t : Registry} {digest : Digest} {checked : Inspection}

theorem settled_of_absent (hrow : s.db.packages.lookup digest = none)
    (hfiles : s.directories.lookup digest = none) : s.Settled digest := .inl ⟨hrow, hfiles⟩

/-- A package that verifies is settled. -/
theorem settled_of_verify (h : s.verify digest = .ok ()) : s.Settled digest :=
  .inr ⟨installed_of_verify h, h⟩

/-- A committed row whose files verify. -/
theorem verify_install (now : ℚ) (h : checked.Checked)
    (hdb : t.db = s.db.install now checked)
    (hverify : Modules.verify (t.directories.lookup checked.digest) checked.manifest
      checked.manifestBytes = .ok ()) : t.verify checked.digest = .ok () := by
  have hrow : t.db.packages.lookup checked.digest = some ⟨checked.manifest.id,
      checked.manifest.version, checked.manifestBytes, now, false, 1⟩ := by
    rw [hdb]
    exact AList.lookup_insert _
  simp only [Registry.verify, Database.row, hrow, orRaise, ok_bind, h.manifest]
  exact hverify

/-- Files without a row can be recovered from when an installation can take them over. -/
theorem recovers_orphan (hrow : s.db.packages.lookup digest = none)
    (hfiles : (s.directories.lookup digest).isSome = true) :
    s.Recovers digest ↔ s.Restorable digest := by
  have hunsettled : ¬s.Settled digest := by
    rintro (⟨-, hnone⟩ | ⟨hinstalled, -⟩)
    · rw [hnone] at hfiles
      cases hfiles
    · rw [Registry.Installed, hrow] at hinstalled
      cases hinstalled
  constructor
  · rintro (hsettled | ⟨now, archive, hsettled⟩ | ⟨now, hsettled⟩)
    · exact absurd hsettled hunsettled
    · by_contra hno
      -- The installation refuses the archive or the files, and nothing changes.
      have hsame : cut (Registry.install now archive digest) s none = s := by
        by_cases hfits : ∃ checked, inspectArchive archive = .ok checked ∧
            checked.digest = digest ∧ s.Fits checked
        · obtain ⟨checked, hok, rfl, hfits⟩ := hfits
          rw [cut_install_orphan hrow hfiles hok hfits, if_neg]
          exact fun hverify => hno ⟨archive, checked, hok, rfl, hfits, hverify.2⟩
        · refine cut_install_refused hrow now (fun checked hok hdigest hfit => ?_) none
          exact hfits ⟨checked, hok, hdigest, hfit⟩
      rw [hsame] at hsettled
      exact hunsettled hsettled
    · rw [cut_uninstall_missing hrow] at hsettled
      exact absurd hsettled hunsettled
  · rintro ⟨archive, checked, hok, rfl, hfits, hverify⟩
    refine .inr (.inl ⟨0, archive, settled_of_verify ?_⟩)
    rw [cut_install_orphan hrow hfiles hok hfits, if_pos ⟨by simp, hverify⟩]
    exact verify_install 0 (inspectArchive_checked hok).1 rfl hverify

/-- Nothing takes over a row whose files do not verify. -/
theorem not_recovers_broken (h : Broken s digest) : ¬s.Recovers digest := by
  have hunsettled : ∀ t, Broken t digest → ¬t.Settled digest := by
    rintro t ⟨hinstalled, hbad⟩ (⟨hnone, -⟩ | ⟨-, hverify⟩)
    · rw [Registry.Installed, hnone] at hinstalled
      cases hinstalled
    · exact hbad hverify
  rintro (hsettled | ⟨now, archive, hsettled⟩ | ⟨now, hsettled⟩)
  · exact hunsettled s h hsettled
  · rw [cut_install_of_installed h.1] at hsettled
    exact hunsettled s h hsettled
  · rcases cut_uninstall_refused now (fun hallowed => h.2 hallowed.2) none with hsame | ⟨entry, hsame⟩
    · rw [hsame] at hsettled
      exact hunsettled s h hsettled
    · rw [hsame] at hsettled
      refine hunsettled _ ⟨installed_revokedState.mpr h.1, ?_⟩ hsettled
      rw [verify_revokedState h.1]
      exact h.2

omit [Format] in
/-- Removing the stages leaves more room. -/
theorem Registry.Fits.reopened (h : s.Fits checked) : s.reopened.Fits checked := by
  obtain ⟨hcount, used, hused, hroom⟩ := h
  simp only [Registry.storageBytes, bind_eq_ok, raiseIf_eq_ok] at hused
  obtain ⟨-, hfiles, -, hbytes, hused⟩ := hused
  cases hused
  simp only [List.map_append, List.sum_append] at hfiles hbytes hroom
  refine ⟨hcount, (s.directories.values.map Directory.bytes).sum, ?_, by omega⟩
  simp only [Registry.storageBytes, Registry.reopened, List.append_nil, bind_eq_ok, raiseIf_eq_ok]
  exact ⟨(), by omega, (), by omega, rfl⟩

theorem files_of_verify (h : s.verify digest = .ok ()) :
    ∃ directory, s.directories.lookup digest = some directory := by
  simp only [Registry.verify, Database.row, bind_eq_ok, orRaise_eq_ok] at h
  obtain ⟨_, -, manifest, -, hverify⟩ := h
  cases hfiles : s.directories.lookup digest with
  | none =>
    rw [hfiles] at hverify
    exact absurd hverify (verify_none _ _)
  | some directory => exact ⟨directory, rfl⟩

/-- An installation that is stopped, in a registry whose files verify, once it is open again. -/
theorem recovers_install (hs : s.Sound) (now : ℚ) (archive : Bytes) (digest : Digest)
    (n : Option ℕ) :
    (cut (Registry.install now archive digest) s n).reopened.Recovers digest ↔
      s.InstallSettles archive digest n := by
  by_cases hinstalled : s.Installed digest
  · rw [cut_install_of_installed hinstalled]
    exact iff_of_true (.inl (settled_of_verify (hs digest hinstalled))) (.inl hinstalled)
  have hrow : s.db.packages.lookup digest = none := Option.not_isSome_iff_eq_none.mp hinstalled
  by_cases hfiles : (s.directories.lookup digest).isSome = true
  · have hcondition : s.InstallSettles archive digest n ↔ s.reopened.Restorable digest := by
      constructor
      · rintro (hyes | hyes)
        · exact absurd hyes hinstalled
        · exact hyes.1 hfiles
      · refine fun hrestorable => .inr ⟨fun _ => hrestorable, fun hnone => ?_⟩
        rw [hnone] at hfiles
        cases hfiles
    rw [hcondition]
    by_cases htaken : ∃ checked, inspectArchive archive = .ok checked ∧ checked.digest = digest ∧
        s.Fits checked ∧ n ≠ some 0 ∧ Modules.verify (s.directories.lookup digest)
          checked.manifest checked.manifestBytes = .ok ()
    · obtain ⟨checked, hok, rfl, hfits, hn, hverify⟩ := htaken
      rw [cut_install_orphan hrow hfiles hok hfits, if_pos ⟨hn, hverify⟩]
      refine iff_of_true (.inl (settled_of_verify ?_)) ?_
      · exact verify_install now (inspectArchive_checked hok).1 rfl hverify
      · exact ⟨archive, checked, hok, rfl, hfits.reopened, hverify⟩
    · have hsame : cut (Registry.install now archive digest) s n = s := by
        by_cases hfits : ∃ checked, inspectArchive archive = .ok checked ∧
            checked.digest = digest ∧ s.Fits checked
        · obtain ⟨checked, hok, rfl, hfits⟩ := hfits
          rw [cut_install_orphan hrow hfiles hok hfits, if_neg]
          exact fun hverify => htaken ⟨checked, hok, rfl, hfits, hverify⟩
        · refine cut_install_refused hrow now (fun checked hok hdigest hfit => ?_) n
          exact hfits ⟨checked, hok, hdigest, hfit⟩
      rw [hsame]
      exact recovers_orphan (s := s.reopened) hrow hfiles
  · have hnone : s.directories.lookup digest = none := Option.not_isSome_iff_eq_none.mp hfiles
    by_cases hfits : ∃ checked, inspectArchive archive = .ok checked ∧
        checked.digest = digest ∧ s.Fits checked
    · obtain ⟨checked, hok, rfl, hfits⟩ := hfits
      -- The same archive is read again, so the condition is about this installation.
      have hcondition : s.InstallSettles archive checked.digest n ↔
          (n = some (checked.stageActions.length + 2) →
            (s.withFiles checked).reopened.Restorable checked.digest) := by
        constructor
        · rintro (hyes | hyes)
          · exact absurd hyes hinstalled
          · exact hyes.2 hnone checked hok rfl hfits
        · refine fun hyes => .inr ⟨fun hsome => absurd hsome hfiles, ?_⟩
          intro _ checked' hok' _ _
          rw [hok] at hok'
          cases hok'
          exact hyes
      rw [hcondition]
      have habsent : ∀ t : Registry, t.db = s.db → t.directories = s.directories →
          t.reopened.Recovers checked.digest := by
        intro t hdb hdirectories
        refine .inl (settled_of_absent ?_ ?_)
        · exact (congrArg (fun db : Database => db.packages.lookup checked.digest) hdb).trans hrow
        · exact (congrArg (fun table => AList.lookup checked.digest table) hdirectories).trans hnone
      rcases cut_install_fresh hrow hnone hok hfits now n with
        ⟨hn, hcut⟩ | ⟨⟨k, hn, -, hk⟩, hdb, hdirectories, -⟩ | ⟨hn, hcut⟩ | ⟨hn, hcut⟩
      · rw [hcut]
        refine iff_of_true (habsent s rfl rfl) fun heq => ?_
        rw [hn] at heq
        cases heq
      · refine iff_of_true (habsent _ hdb hdirectories) fun heq => ?_
        rw [hn] at heq
        cases heq
        omega
      · rw [hcut]
        refine (recovers_orphan (s := (s.withFiles checked).reopened) hrow ?_).trans
          ⟨fun h _ => h, fun h => h hn⟩
        show (AList.lookup checked.digest (AList.insert _ _ _)).isSome = true
        rw [AList.lookup_insert]
        rfl
      · rw [hcut]
        refine iff_of_true (.inl (settled_of_verify ?_)) fun heq => absurd (hn _ heq) (by omega)
        refine verify_install now (inspectArchive_checked hok).1 rfl ?_
        show Modules.verify ((s.directories.insert checked.digest checked.published).lookup
          checked.digest) _ _ = .ok ()
        rw [AList.lookup_insert]
        exact verify_published (inspectArchive_checked hok).1
    · have hrefused : ∀ checked, inspectArchive archive = .ok checked → checked.digest = digest →
          ¬s.Fits checked := fun checked hok hdigest hfit => hfits ⟨checked, hok, hdigest, hfit⟩
      rw [cut_install_refused hrow now hrefused]
      refine iff_of_true (.inl (settled_of_absent hrow hnone)) (.inr ⟨?_, ?_⟩)
      · exact fun hsome => absurd hsome hfiles
      · exact fun _ checked hok hdigest hfit => absurd hfit (hrefused checked hok hdigest)

/-- A removal that is stopped, in a registry whose files verify, once it is open again. -/
theorem recovers_uninstall (hs : s.Sound) (now : ℚ) (digest : Digest) (n : Option ℕ) :
    (cut (Registry.uninstall now digest) s n).reopened.Recovers digest ↔
      s.RemovalSettles digest n := by
  by_cases hinstalled : s.Installed digest
  · have hverify := hs digest hinstalled
    have hcondition : s.RemovalSettles digest n ↔ ¬s.Halved digest n :=
      ⟨fun h => h.1, fun h => ⟨h, fun hno => absurd hinstalled hno⟩⟩
    have hkept : ∀ t, (t = s ∨ ∃ entry, t = revokedState s digest entry) →
        t.reopened.Recovers digest := by
      rintro t (rfl | ⟨entry, rfl⟩)
      · exact .inl (settled_of_verify hverify)
      · refine .inl (settled_of_verify ?_)
        exact (verify_revokedState hinstalled).trans hverify
    rw [hcondition]
    by_cases hlease : s.lease digest = 0
    · obtain ⟨directory, hfiles⟩ := files_of_verify hverify
      rw [halved_iff hinstalled hlease hfiles]
      rcases cut_uninstall now hlease hverify hfiles n with
        ⟨⟨k, hn, hk⟩, ht⟩ | ⟨hhalved, hbroken⟩ | ⟨hn, ⟨entry, packageId, hdb⟩, hdirectories, -⟩
      · refine iff_of_true (hkept _ ht) ?_
        rintro ⟨k', hk', hlower, -⟩
        rw [hn] at hk'
        cases hk'
        omega
      · exact iff_of_false (not_recovers_broken hbroken) (not_not.mpr hhalved)
      · refine iff_of_true (.inl (settled_of_absent ?_ ?_)) ?_
        · show (cut _ s n).db.packages.lookup digest = none
          rw [hdb]
          exact (Table.lookup_erase_eq _ _ _).trans (if_pos rfl)
        · exact (hdirectories digest).trans (if_pos rfl)
        · rintro ⟨k, hk, -, hupper⟩
          have hpast := hn k hk
          omega
    · refine iff_of_true (hkept _ ?_) fun hhalved => hlease hhalved.2.1
      exact cut_uninstall_refused now (fun h => hlease h.1) n
  · have hrow : s.db.packages.lookup digest = none := Option.not_isSome_iff_eq_none.mp hinstalled
    have hhalved : ¬s.Halved digest n := fun h => hinstalled h.1
    rw [cut_uninstall_missing hrow]
    by_cases hfiles : (s.directories.lookup digest).isSome = true
    · refine (recovers_orphan (s := s.reopened) hrow hfiles).trans ?_
      exact ⟨fun h => ⟨hhalved, fun _ _ => h⟩, fun h => h.2 hinstalled hfiles⟩
    · refine iff_of_true (.inl (settled_of_absent hrow ?_)) ⟨hhalved, fun _ hsome => ?_⟩
      · exact Option.not_isSome_iff_eq_none.mp hfiles
      · exact absurd hsome hfiles

/-- The starts after an installation that is stopped. -/
theorem startable_install (hopen : s.opened = true) (now : ℚ) (archive : Bytes) (digest : Digest)
    (n : Option ℕ) (interruption : Interruption) :
    (s.leave (cut (Registry.install now archive digest) s n) interruption).Startable ↔
      s.InstallStarts archive digest n interruption := by
  by_cases hnew : ∃ checked, s.Publishes archive digest checked
  · obtain ⟨checked, hpublishes⟩ := hnew
    obtain ⟨hinstalled, hfiles, hok, rfl, hfits⟩ := hpublishes
    have hrow : s.db.packages.lookup checked.digest = none :=
      Option.not_isSome_iff_eq_none.mp hinstalled
    have honly : ∀ other, s.Publishes archive checked.digest other → other = checked := by
      rintro other ⟨-, -, hother, -⟩
      rw [hok] at hother
      exact (Except.ok.inj hother).symm
    have hcondition : s.InstallStarts archive checked.digest n interruption ↔ s.Startable ∧
        ((∃ k, n = some k ∧ 1 ≤ k ∧ k ≤ checked.stageActions.length + 1) →
          interruption ≠ .failure true →
          Registry.room s.packageCount (s.stages.length + 1)) ∧
        ((∀ k, n = some k → checked.stageActions.length + 2 ≤ k) →
          Registry.room (s.packageCount + 1) s.stages.length) := by
      refine and_congr_right fun _ => ⟨fun h => h checked ⟨hinstalled, hfiles, hok, rfl, hfits⟩, ?_⟩
      intro h other hother
      rw [honly other hother]
      exact h
    rw [hcondition]
    -- A published package is one more.
    have hadded : (s.withFiles checked).packageCount = s.packageCount + 1 :=
      Table.length_insert_of_none hfiles _
    have hpublished : ∀ t : Registry, t.directories = (s.withFiles checked).directories →
        t.stages = s.stages → ((s.leave t interruption).Startable ↔
          Registry.room (s.packageCount + 1) s.stages.length) := by
      intro t hdirectories hstages
      rw [← hadded]
      unfold Registry.Startable Registry.packageCount
      rw [directories_leave, stages_leave, hdirectories, hstages, ite_self]
    rcases cut_install_fresh hrow hfiles hok hfits now n with
      ⟨hn, hcut⟩ | ⟨⟨k, hn, hlower, hupper⟩, -, hdirectories, hopened, hstages⟩ | ⟨hn, hcut⟩ |
        ⟨hn, hcut⟩
    · rw [hcut, startable_leave interruption rfl rfl]
      refine ⟨fun h => ⟨h, ?_, ?_⟩, fun h => h.1⟩
      · rintro ⟨k, hk, hlower, -⟩
        rw [hn] at hk
        cases hk
        omega
      · intro hlate
        have hzero := hlate 0 hn
        omega
    · generalize cut (Registry.install now archive checked.digest) s n = t at *
      have hcount : (s.leave t interruption).packageCount = s.packageCount := by
        rw [Registry.packageCount, directories_leave, hdirectories, Registry.packageCount]
      have hearly : ¬∀ k, n = some k → checked.stageActions.length + 2 ≤ k := fun hlate =>
        absurd (hlate k hn) (by omega)
      by_cases hcleaned : interruption = .failure true
      · have hsame : (s.leave t interruption).stages = s.stages := by
          rw [stages_leave, if_pos ⟨hcleaned, hopened.trans hopen⟩]
        rw [Registry.Startable, hcount, hsame]
        exact ⟨fun h => ⟨h, fun _ hno => absurd hcleaned hno, fun h => absurd h hearly⟩,
          fun h => h.1⟩
      · have hmore : (s.leave t interruption).stages.length = s.stages.length + 1 := by
          rw [stages_leave, if_neg fun h => hcleaned h.1, hstages]
        rw [Registry.Startable, hcount, hmore]
        refine ⟨fun h => ⟨?_, fun _ _ => h, fun h => absurd h hearly⟩,
          fun h => h.2.1 ⟨k, hn, hlower, hupper⟩ hcleaned⟩
        unfold Registry.Startable Registry.room at *
        omega
    · rw [hcut, hpublished (s.withFiles checked) rfl rfl]
      refine ⟨fun h => ⟨?_, ?_, fun _ => h⟩, fun h => h.2.2 fun k hk => ?_⟩
      · unfold Registry.Startable Registry.room at *
        omega
      · rintro ⟨k, hk, -, hupper⟩
        rw [hn] at hk
        cases hk
        omega
      · rw [hn] at hk
        cases hk
        exact le_rfl
    · rw [hcut]
      refine (hpublished { s.withFiles checked with db := s.db.install now checked } rfl
        rfl).trans ?_
      refine ⟨fun h => ⟨?_, ?_, fun _ => h⟩, fun h => h.2.2 fun k hk => (hn k hk).le⟩
      · unfold Registry.Startable Registry.room at *
        omega
      · rintro ⟨k, hk, -, hupper⟩
        have hpast := hn k hk
        omega
  · have hcondition : s.InstallStarts archive digest n interruption ↔ s.Startable :=
      and_iff_left fun checked hchecked => absurd ⟨checked, hchecked⟩ hnew
    rw [hcondition]
    -- Nothing is published, so the packages and the stages stay as they are.
    have hframe : (cut (Registry.install now archive digest) s n).directories = s.directories ∧
        (cut (Registry.install now archive digest) s n).stages = s.stages := by
      by_cases hinstalled : s.Installed digest
      · rw [cut_install_of_installed hinstalled]
        exact ⟨rfl, rfl⟩
      have hrow := Option.not_isSome_iff_eq_none.mp hinstalled
      by_cases hfits : ∃ checked, inspectArchive archive = .ok checked ∧
          checked.digest = digest ∧ s.Fits checked
      · obtain ⟨checked, hok, rfl, hfits⟩ := hfits
        cases hfiles : s.directories.lookup checked.digest with
        | none => exact absurd ⟨checked, hinstalled, hfiles, hok, rfl, hfits⟩ hnew
        | some directory =>
          rw [cut_install_orphan hrow (by rw [hfiles]; rfl) hok hfits]
          split_ifs <;> exact ⟨rfl, rfl⟩
      · rw [cut_install_refused hrow now fun checked hok hdigest hfit =>
          hfits ⟨checked, hok, hdigest, hfit⟩]
        exact ⟨rfl, rfl⟩
    exact startable_leave interruption hframe.1 hframe.2

/-- The starts after a removal that is not stopped halfway. -/
theorem startable_uninstall (hs : s.Sound) (now : ℚ) (digest : Digest) (n : Option ℕ)
    (interruption : Interruption) (hhalved : ¬s.Halved digest n) :
    (s.leave (cut (Registry.uninstall now digest) s n) interruption).Startable ↔
      s.RemovalStarts digest n := by
  have hkept : ¬s.Removes digest n → ∀ t, (t = s ∨ ∃ entry, t = revokedState s digest entry) →
      ((s.leave t interruption).Startable ↔ s.RemovalStarts digest n) := by
    intro hremoves t ht
    have hcondition : s.RemovalStarts digest n ↔ s.Startable :=
      or_iff_left fun h => hremoves h.1
    rw [hcondition]
    rcases ht with rfl | ⟨entry, rfl⟩
    · exact startable_leave interruption rfl rfl
    · exact startable_leave interruption rfl rfl
  by_cases hallowed : s.lease digest = 0 ∧ s.verify digest = .ok ()
  · obtain ⟨hlease, hverify⟩ := hallowed
    have hinstalled := installed_of_verify hverify
    obtain ⟨directory, hfiles⟩ := files_of_verify hverify
    have hremoves : s.Removes digest n ↔
        ∀ k, n = some k → (Registry.removals directory).length + 2 < k := by
      constructor
      · rintro ⟨-, -, found, hfound, hn⟩
        rw [hfiles] at hfound
        cases hfound
        exact hn
      · exact fun hn => ⟨hinstalled, hlease, directory, hfiles, hn⟩
    rcases cut_uninstall now hlease hverify hfiles n with
      ⟨⟨k, hn, hk⟩, ht⟩ | ⟨hmiddle, -⟩ | ⟨hn, -, hdirectories, hstages⟩
    · refine hkept (fun h => ?_) _ ht
      have hpast := hremoves.mp h k hn
      omega
    · exact absurd ((halved_iff hinstalled hlease hfiles n).mpr hmiddle) hhalved
    · generalize cut (Registry.uninstall now digest) s n = t at *
      have hcount : (s.leave t interruption).packageCount = s.packageCount - 1 := by
        rw [Registry.packageCount, directories_leave]
        exact Table.length_of_lookup_erased hdirectories (by rw [hfiles]; rfl)
      have hsame : (s.leave t interruption).stages = s.stages := by
        rw [stages_leave, hstages, ite_self]
      rw [Registry.Startable, hcount, hsame]
      refine ⟨fun h => .inr ⟨hremoves.mpr hn, h⟩, ?_⟩
      rintro (h | ⟨-, h⟩)
      · unfold Registry.Startable Registry.room at *
        omega
      · exact h
  · refine hkept ?_ _ (cut_uninstall_refused now hallowed n)
    rintro ⟨hinstalled, hlease, -⟩
    exact hallowed ⟨hlease, hs digest hinstalled⟩

/-- The package recovers exactly when the controller starts again and the package recovers in the
registry that is open then. -/
theorem recovered_iff (s t : Registry) (interruption : Interruption) (digest : Digest) :
    (s.leave t interruption).Recovered digest ↔
      (s.leave t interruption).Startable ∧ t.reopened.Recovers digest := by
  rw [Registry.Recovered, reopened_iff (P := fun u => u.Recovers digest), reopened_leave]

end Recovery

/-! ### Runs -/

section Runs

variable {s t : Registry} {digest : Digest}

omit [Format] in
/-- The rows come from rows with the same manifests. -/
def SameManifests (db db' : Database) : Prop :=
  ∀ k row', db'.packages.lookup k = some row' →
    ∃ row, db.packages.lookup k = some row ∧ row'.manifest = row.manifest

omit [Format] in
theorem SameManifests.trans {db db' db'' : Database} (h : SameManifests db db')
    (h' : SameManifests db' db'') : SameManifests db db'' := by
  intro k row'' hrow''
  obtain ⟨row', hrow', hsame'⟩ := h' k row'' hrow''
  obtain ⟨row, hrow, hsame⟩ := h k row' hrow'
  exact ⟨row, hrow, hsame'.trans hsame⟩

omit [Format] in
theorem sameManifests_disable (db : Database) (digest : Digest) :
    SameManifests db (db.disable digest) := by
  intro k row' hrow'
  rw [Database.lookup_disable] at hrow'
  split_ifs at hrow' with hk
  · obtain ⟨row, hrow, rfl⟩ := Option.map_eq_some_iff.mp hrow'
    exact ⟨row, hk ▸ hrow, rfl⟩
  · exact ⟨row', hrow', rfl⟩

omit [Format] in
theorem sameManifests_disableAll (db : Database) (list : List Digest) :
    SameManifests db (list.foldl Database.disable db) := by
  induction list generalizing db with
  | nil => exact fun k row hrow => ⟨row, hrow, rfl⟩
  | cons digest list ih => exact (sameManifests_disable db digest).trans (ih _)

omit [Format] in
theorem sameManifests_grant {db db' : Database} {accepted : List Selection}
    (h : db.grant digest accepted = .ok db') : SameManifests db db' := by
  obtain ⟨-, -, hlookup⟩ := Database.grant_eq_ok h
  intro k row' hrow'
  rw [hlookup] at hrow'
  split_ifs at hrow' with hk
  · obtain ⟨row, hrow, rfl⟩ := Option.map_eq_some_iff.mp hrow'
    exact ⟨row, hk ▸ hrow, rfl⟩
  · exact ⟨row', hrow', rfl⟩

theorem sameManifests_enabling {now : ℚ} {enabled : Bool} {grants : Option (List Selection)}
    {sandboxReady : Bool} {runtime : Except Error Unit} {db : Database}
    (h : s.enabling now digest enabled grants sandboxReady runtime = .ok db) :
    SameManifests s.db db := by
  simp only [Registry.enabling, bind_eq_ok] at h
  obtain ⟨current, -, accepted, -, h⟩ := h
  split_ifs at h
  · obtain ⟨granted, hgranted, h⟩ := bind_eq_ok.mp h
    cases h
    have hall : SameManifests s.db granted :=
      ((sameManifests_disableAll s.db _).trans (sameManifests_disable _ digest)).trans
        (sameManifests_grant hgranted)
    exact hall
  · cases h
    exact sameManifests_disable s.db digest

/-- Packages with the same manifests and the same files verify as before. -/
theorem Registry.Sound.frame (hs : s.Sound) (hrows : SameManifests s.db t.db)
    (hfiles : t.directories = s.directories) : t.Sound := by
  intro k hinstalled
  obtain ⟨row', hrow'⟩ := Option.isSome_iff_exists.mp hinstalled
  obtain ⟨row, hrow, hsame⟩ := hrows k row' hrow'
  rw [verify_congr hrow hrow' hsame (by rw [hfiles])]
  exact hs k (Option.isSome_iff_exists.mpr ⟨row, hrow⟩)

/-- An operation on one package leaves the others as they are. -/
theorem Registry.Sound.others (hs : s.Sound) (digest : Digest)
    (hrows : ∀ k row', k ≠ digest → t.db.packages.lookup k = some row' →
      ∃ row, s.db.packages.lookup k = some row ∧ row'.manifest = row.manifest)
    (hfiles : ∀ k ≠ digest, t.directories.lookup k = s.directories.lookup k)
    (h : t.Installed digest → t.verify digest = .ok ()) : t.Sound := by
  intro k hinstalled
  by_cases hk : k = digest
  · exact hk ▸ h (hk ▸ hinstalled)
  · obtain ⟨row', hrow'⟩ := Option.isSome_iff_exists.mp hinstalled
    obtain ⟨row, hrow, hsame⟩ := hrows k row' hk hrow'
    rw [verify_congr hrow hrow' hsame (hfiles k hk)]
    exact hs k (Option.isSome_iff_exists.mpr ⟨row, hrow⟩)

/-- A complete installation is sound. -/
theorem Registry.Sound.installed {checked : Inspection} (hs : s.Sound) (now : ℚ)
    (h : checked.Checked) (hdb : t.db = s.db.install now checked)
    (hfiles : ∀ k ≠ checked.digest, t.directories.lookup k = s.directories.lookup k)
    (hverify : Modules.verify (t.directories.lookup checked.digest) checked.manifest
      checked.manifestBytes = .ok ()) : t.Sound := by
  refine hs.others checked.digest (fun k row' hk hrow' => ⟨row', ?_, rfl⟩) hfiles
    fun _ => verify_install now h hdb hverify
  rw [hdb] at hrow'
  have hlookup := Table.lookup_insert_eq s.db.packages checked.digest k
    ⟨checked.manifest.id, checked.manifest.version, checked.manifestBytes, now, false, 1⟩
  rw [if_neg hk] at hlookup
  exact hlookup.symm.trans hrow'

/-- An installation is sound wherever it stops. -/
theorem sound_install (hs : s.Sound) (now : ℚ) (archive : Bytes) (digest : Digest)
    (n : Option ℕ) : (cut (Registry.install now archive digest) s n).Sound := by
  by_cases hinstalled : s.Installed digest
  · rw [cut_install_of_installed hinstalled]
    exact hs
  have hrow : s.db.packages.lookup digest = none := Option.not_isSome_iff_eq_none.mp hinstalled
  by_cases hfits : ∃ checked, inspectArchive archive = .ok checked ∧
      checked.digest = digest ∧ s.Fits checked
  · obtain ⟨checked, hok, rfl, hfits⟩ := hfits
    have hchecked := (inspectArchive_checked hok).1
    cases hfiles : s.directories.lookup checked.digest with
    | some directory =>
      rw [cut_install_orphan hrow (by rw [hfiles]; rfl) hok hfits]
      split_ifs with htaken
      · exact hs.installed now hchecked rfl (fun _ _ => rfl) htaken.2
      · exact hs
    | none =>
      have hothers : ∀ k ≠ checked.digest,
          (s.withFiles checked).directories.lookup k = s.directories.lookup k := fun k hk =>
        (Table.lookup_insert_eq _ _ _ _).trans (if_neg hk)
      rcases cut_install_fresh hrow hfiles hok hfits now n with
        ⟨-, hcut⟩ | ⟨-, hdb, hdirectories, -⟩ | ⟨-, hcut⟩ | ⟨-, hcut⟩
      · rw [hcut]
        exact hs
      · exact hs.frame (by rw [hdb]; exact fun k row hrow => ⟨row, hrow, rfl⟩) hdirectories
      · rw [hcut]
        -- The new files belong to no row.
        refine hs.others checked.digest (fun k row _ hrow => ⟨row, hrow, rfl⟩) hothers
          fun hrow' => absurd hrow' hinstalled
      · rw [hcut]
        refine hs.installed now hchecked rfl hothers ?_
        show Modules.verify ((s.directories.insert checked.digest checked.published).lookup
          checked.digest) _ _ = .ok ()
        rw [AList.lookup_insert]
        exact verify_published hchecked
  · rw [cut_install_refused hrow now fun checked hok hdigest hfit =>
      hfits ⟨checked, hok, hdigest, hfit⟩]
    exact hs

/-- So is a removal that is not halved. -/
theorem sound_uninstall (hs : s.Sound) (now : ℚ) (digest : Digest) (n : Option ℕ)
    (hcareful : ¬s.Halved digest n) : (cut (Registry.uninstall now digest) s n).Sound := by
  have hkept : ∀ t, (t = s ∨ ∃ entry, t = revokedState s digest entry) → t.Sound := by
    rintro t (rfl | ⟨entry, rfl⟩)
    · exact hs
    · exact hs.frame (sameManifests_disable s.db digest) rfl
  by_cases hallowed : s.lease digest = 0 ∧ s.verify digest = .ok ()
  · obtain ⟨directory, hfiles⟩ := files_of_verify hallowed.2
    rcases cut_uninstall now hallowed.1 hallowed.2 hfiles n with
      ⟨-, ht⟩ | ⟨hmiddle, -⟩ | ⟨-, ⟨entry, packageId, hdb⟩, hdirectories, -⟩
    · exact hkept _ ht
    · have hinstalled := installed_of_verify hallowed.2
      exact absurd ((halved_iff hinstalled hallowed.1 hfiles n).mpr hmiddle) hcareful
    · have hlookup : ∀ k, (cut (Registry.uninstall now digest) s n).db.packages.lookup k =
          if k = digest then none else (s.db.disable digest).packages.lookup k := by
        rw [hdb]
        exact fun k => Table.lookup_erase_eq _ _ _
      refine hs.others digest (fun k row' hk hrow' => ?_) (fun k hk => ?_)
        fun hinstalled => ?_
      · rw [hlookup, if_neg hk] at hrow'
        exact sameManifests_disable s.db digest k row' hrow'
      · rw [hdirectories, if_neg hk]
      · rw [Registry.Installed, hlookup, if_pos rfl] at hinstalled
        cases hinstalled
  · exact hkept _ (cut_uninstall_refused now hallowed n)

theorem sound_setEnabled (hs : s.Sound) (now : ℚ) (digest : Digest) (enabled : Bool)
    (grants : Option (List Selection)) (sandboxReady : Bool) (runtime : Except Error Unit)
    (n : Option ℕ) :
    (cut (Registry.setEnabled now digest enabled grants sandboxReady runtime) s n).Sound := by
  have hwp : wp (Registry.setEnabled now digest enabled grants sandboxReady runtime)
      (fun _ => Registry.Sound) (fun _ => Registry.Sound) Registry.Sound s := by
    simp only [Registry.setEnabled, wp_bind, wp_disk, wp_check]
    refine ⟨fun db hdb => ⟨fun view _ => ?_, fun _ _ => hs⟩, fun _ _ => hs⟩
    have hsound : Registry.Sound { s with db := db } := hs.frame (sameManifests_enabling hdb) rfl
    rw [Registry.commit, wp_perform]
    exact ⟨hsound, wp_pure.mpr hsound⟩
  exact cut_of_wp hwp hs n

theorem sound_acquire (hs : s.Sound) (digest : Digest) (n : Option ℕ) :
    (cut (Registry.acquire digest) s n).Sound := by
  have hwp : wp (Registry.acquire digest) (fun _ => Registry.Sound) (fun _ => Registry.Sound)
      Registry.Sound s := by
    simp only [Registry.acquire, wp_bind, wp_disk, wp_check, wp_refuseIf, wp_perform, wp_pure]
    exact ⟨fun _ _ => ⟨fun _ => hs, fun _ => ⟨fun _ _ => ⟨hs, hs⟩, fun _ _ => hs⟩⟩,
      fun _ _ => hs⟩
  exact cut_of_wp hwp hs n

omit [Format] in
/-- A stop depends on the durable steps only, and not on what is returned. -/
theorem cut_discard {α : Type} (operation : Operation α) (s : Registry) (n : Option ℕ) :
    cut (discard operation) s n = cut operation s n := by
  have hstates : (discard operation s).states = (operation s).states := by
    show ((operation >>= fun _ => pure ()) s).states = (operation s).states
    simp only [bind, followedBy]
    cases (operation s).result <;> simp [pure, returns]
  cases n <;> simp only [cut, hstates]

/-- So is the opening. -/
theorem sound_reopen (hs : s.Sound) (order : List Entry) (n : Option ℕ) :
    (cut (Registry.reopen order) s n).Sound := by
  obtain ⟨hdb, hdirectories⟩ := cut_of_wp (wp_reopen s order) ⟨rfl, rfl⟩ n
  exact hs.frame (by rw [hdb]; exact fun k row hrow => ⟨row, hrow, rfl⟩) hdirectories

/-- A step that is not a removal stopped halfway keeps the files verified. -/
theorem sound_step (step : Step) (hs : s.Sound) (hcareful : s.Careful step) :
    (s.step step).Sound := by
  by_cases hallowed : s.allows step.event = true
  · have hnext : (cut (Registry.operate step.event) s (step.stopped.map Prod.fst)).Sound := by
      unfold Registry.Careful at hcareful
      cases hevent : step.event with
      | install now archive expectedDigest =>
        rw [Registry.operate, cut_discard]
        exact sound_install hs now archive expectedDigest _
      | setEnabled now digest enabled grants sandboxReady runtime =>
        rw [Registry.operate, cut_discard]
        exact sound_setEnabled hs now digest enabled grants sandboxReady runtime _
      | revoke now digest =>
        rw [Registry.operate, cut_discard]
        exact sound_setEnabled hs now digest false none false (.ok ()) _
      | acquire digest =>
        rw [Registry.operate, cut_discard]
        exact sound_acquire hs digest _
      | release digest =>
        rw [Registry.operate, Registry.release, cut_perform]
        dsimp only
        split_ifs <;> exact hs
      | uninstall now digest =>
        rw [hevent] at hcareful hallowed
        exact sound_uninstall hs now digest _ (hcareful hallowed)
      | reopen order => exact sound_reopen hs order _
    unfold Registry.step
    rw [if_pos hallowed]
    cases hstopped : step.stopped with
    | none =>
      rw [hstopped] at hnext
      exact hnext
    | some stop =>
      rw [hstopped] at hnext
      refine hnext.frame ?_ (directories_leave _ _ _)
      rw [Registry.db_leave]
      exact fun k row hrow => ⟨row, hrow, rfl⟩
  · unfold Registry.step
    rw [if_neg hallowed]
    exact hs

/-- In every run in which no removal is stopped halfway, an installation or a removal that is
stopped anywhere can be recovered from exactly when the controller starts again, a removal is not
stopped halfway and files that have no row can still be taken over. -/
theorem interruption_recoverable (steps : List Step)
    (hrun : Along Registry.step Registry.Careful .initial steps) :
    let s := run Registry.step .initial steps
    s.opened = true →
    (∀ now archive digest n interruption,
      (s.leave (cut (Registry.install now archive digest) s n) interruption).Recovered digest ↔
        s.InstallRecovers archive digest n interruption) ∧
    ∀ now digest n interruption,
      (s.leave (cut (Registry.uninstall now digest) s n) interruption).Recovered digest ↔
        s.RemovalRecovers digest n := by
  intro s hopen
  have hsound : s.Sound := hrun.run_invariant (fun s step => sound_step step) nofun
  constructor
  · intro now archive digest n interruption
    rw [recovered_iff, startable_install hopen, recovers_install hsound]
    rfl
  · intro now digest n interruption
    rw [recovered_iff, recovers_uninstall hsound]
    -- A removal that is stopped halfway recovers on neither side.
    refine and_congr_left fun hsettles => ?_
    exact startable_uninstall hsound now digest n interruption hsettles.1

end Runs

end

namespace Example

/-- A removal that is stopped after its first change of the files leaves a row that neither an
installation nor another removal can do anything about. -/
theorem not_recovers_halved :
    ¬∀ (steps : List Step) (now : ℚ) (digest : Digest) (n : Option ℕ)
      (interruption : Interruption), let s := run Registry.step .initial steps
      s.opened = true →
      (s.leave (cut (Registry.uninstall now digest) s n) interruption).Recovered digest := by
  intro h
  have hrecovered := h (enabling "workspace-a") 0 digest (some 2) .crash (by decide +kernel)
  refine not_recovers_broken (s := (cut (Registry.uninstall 0 digest)
    (run Registry.step .initial (enabling "workspace-a")) (some 2)).reopened) ?_
    ((recovered_iff _ _ _ _).mp hrecovered).2
  exact ⟨by unfold Registry.Installed; decide +kernel, by decide +kernel⟩

/-- The package is installed, and a removal is stopped before it changes the files. -/
theorem interruption_recoverable_installed :
    ((run Registry.step .initial (enabling "workspace-a")).leave
      (cut (Registry.uninstall 0 digest)
        (run Registry.step .initial (enabling "workspace-a")) (some 1)) .crash).Recovered digest := by
  have hrun : Along Registry.step Registry.Careful .initial (enabling "workspace-a") := by
    simp [enabling, Registry.Careful]
  refine ((interruption_recoverable (enabling "workspace-a") hrun (by decide +kernel)).2 0 digest
    (some 1) .crash).mpr ⟨.inl ?_, ?_, ?_⟩
  · unfold Registry.Startable Registry.room
    decide +kernel
  · rintro ⟨-, -, directory, k, -, hk, hlower, -⟩
    cases hk
    omega
  · intro habsent
    refine absurd ?_ habsent
    unfold Registry.Installed
    decide +kernel

end Example

end Ficc.Modules
