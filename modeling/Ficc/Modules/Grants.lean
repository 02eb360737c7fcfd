import Ficc.Modules.Registry

/-!
# Grants and their revisions

`Commits s db` lists the databases that one operation can leave behind when it starts in `s`. From
this list follow the facts about whole runs: one version of a package is enabled, only enabled
packages have grants, and as long as a package stays installed its revision grows with every change
of its grants. Removing a package forgets its revision, and that is why a package with a lease is
not removed.
-/

namespace Ficc.Modules

open Execution (Digest)
open Durable

/-! ### The changes of the database -/

/-- The row of a package that has been disabled. -/
def Package.disabled (row : Package) : Package :=
  { row with enabled := false, revision := row.revision + 1 }

namespace Database

variable {db db' : Database} {digest k : Digest}

/-- Only the package itself is disabled. -/
theorem lookup_disable (db : Database) (digest k : Digest) :
    (db.disable digest).packages.lookup k =
      if k = digest then (db.packages.lookup digest).map Package.disabled
      else db.packages.lookup k := by
  exact Table.lookup_modify _ _ _ _

/-- Its grants are gone. -/
theorem mem_grants_disable {grant : Grant} :
    grant ∈ (db.disable digest).grants ↔ grant ∈ db.grants ∧ grant.digest ≠ digest := by
  simp [disable]

theorem grantsOf_disable (db : Database) (h : k ≠ digest) :
    (db.disable digest).grantsOf k = db.grantsOf k := by
  simp only [grantsOf, disable, List.filter_filter]
  refine List.filter_congr fun grant _ => ?_
  by_cases hk : grant.digest = k
  · simp [hk, h]
  · simp [hk]

/-- A package stays, and its revision grows unless nothing about it changes. -/
def Advances (digest : Digest) (db db' : Database) : Prop :=
  ∀ row, db.packages.lookup digest = some row → ∃ row',
    db'.packages.lookup digest = some row' ∧
      (row.revision < row'.revision ∨ row' = row ∧ db'.grantsOf digest = db.grantsOf digest)

theorem Advances.refl (digest : Digest) (db : Database) : Advances digest db db :=
  fun row hrow => ⟨row, hrow, .inr ⟨rfl, rfl⟩⟩

/-- Advances compose. -/
theorem Advances.trans {db'' : Database} (h : Advances digest db db')
    (h' : Advances digest db' db'') : Advances digest db db'' := by
  intro row hrow
  obtain ⟨row', hrow', hnext⟩ := h row hrow
  obtain ⟨row'', hrow'', hlast⟩ := h' row' hrow'
  refine ⟨row'', hrow'', ?_⟩
  rcases hnext with hless | ⟨rfl, hgrants⟩
  · rcases hlast with hless' | ⟨rfl, -⟩
    · exact .inl (hless.trans hless')
    · exact .inl hless
  · rcases hlast with hless | ⟨rfl, hgrants'⟩
    · exact .inl hless
    · exact .inr ⟨rfl, hgrants'.trans hgrants⟩

/-- A disabled package gets its next revision. -/
theorem advances_disable (db : Database) (digest k : Digest) :
    Advances k db (db.disable digest) := by
  intro row hrow
  by_cases hk : k = digest
  · subst hk
    refine ⟨Package.disabled row, ?_, .inl (Nat.lt_succ_self _)⟩
    rw [lookup_disable, if_pos rfl, hrow, Option.map_some]
  · refine ⟨row, ?_, .inr ⟨rfl, grantsOf_disable db hk⟩⟩
    rw [lookup_disable, if_neg hk, hrow]

theorem advances_disableAll (db : Database) (list : List Digest) (k : Digest) :
    Advances k db (list.foldl disable db) := by
  induction list generalizing db with
  | nil => exact .refl k db
  | cons digest list ih => exact (advances_disable db digest k).trans (ih _)

/-- The packages that are disabled, one after the other. -/
theorem lookup_disableAll {list : List Digest} {row : Package}
    (h : (list.foldl disable db).packages.lookup k = some row) :
    (k ∉ list ∧ db.packages.lookup k = some row) ∨
      row.enabled = false ∧ ∃ old, db.packages.lookup k = some old ∧
        row.packageId = old.packageId ∧ row.manifest = old.manifest := by
  induction list generalizing db with
  | nil => exact .inl ⟨List.not_mem_nil, h⟩
  | cons digest list ih =>
    rcases ih h with ⟨hk, hlookup⟩ | ⟨hoff, old, hold, hsame⟩
    · rw [lookup_disable] at hlookup
      split_ifs at hlookup with heq
      · obtain ⟨old, hold, rfl⟩ := Option.map_eq_some_iff.mp hlookup
        exact .inr ⟨rfl, old, heq ▸ hold, rfl, rfl⟩
      · exact .inl ⟨by simp [heq, hk], hlookup⟩
    · refine .inr ⟨hoff, ?_⟩
      rw [lookup_disable] at hold
      split_ifs at hold with heq
      · obtain ⟨older, holder, rfl⟩ := Option.map_eq_some_iff.mp hold
        exact ⟨older, heq ▸ holder, hsame⟩
      · exact ⟨old, hold, hsame⟩

theorem length_grants_disable (db : Database) (digest : Digest) :
    (db.disable digest).grants.length ≤ db.grants.length :=
  List.length_filter_le _ _

/-- What `grant` does to the database. -/
theorem grant_eq_ok {accepted : List Selection} (h : db.grant digest accepted = .ok db') :
    db'.grants = db.grants ++ rowsOf digest accepted ∧ db'.grants.length ≤ MAX_GRANTS ∧
      ∀ k, db'.packages.lookup k =
        if k = digest then (db.packages.lookup digest).map fun row => { row with enabled := true }
        else db.packages.lookup k := by
  simp only [grant, insertGrants, bind_eq_ok, raiseIf_eq_ok] at h
  obtain ⟨-, hbound, -, -, h⟩ := h
  cases h
  refine ⟨rfl, ?_, fun k => Table.lookup_modify _ _ _ _⟩
  show (db.grants ++ rowsOf digest accepted).length ≤ MAX_GRANTS
  rw [List.length_append, rowsOf, List.length_flatMap]
  simpa using hbound

theorem mem_rowsOf {accepted : List Selection} {grant : Grant}
    (h : grant ∈ rowsOf digest accepted) : grant.digest = digest := by
  simp only [rowsOf, List.mem_flatMap, List.mem_map] at h
  obtain ⟨_, _, _, _, rfl⟩ := h
  rfl

/-- The grants of one package leave the others. -/
theorem advances_grant {accepted : List Selection} (h : db.grant digest accepted = .ok db')
    (hk : k ≠ digest) : Advances k db db' := by
  obtain ⟨hgrants, -, hpackages⟩ := grant_eq_ok h
  intro row hrow
  refine ⟨row, by rw [hpackages, if_neg hk, hrow], .inr ⟨rfl, ?_⟩⟩
  have hnone : (rowsOf digest accepted).filter (fun grant => grant.digest = k) = [] := by
    refine List.filter_eq_nil_iff.mpr fun grant hgrant => ?_
    simpa [mem_rowsOf hgrant] using Ne.symm hk
  rw [grantsOf, hgrants, List.filter_append, hnone, List.append_nil, grantsOf]

end Database

/-! ### What an operation leaves behind -/

section Commits

variable [Format]

/-- The number of leases of a package. -/
def Registry.lease (s : Registry) (digest : Digest) : ℕ := (s.leases.lookup digest).getD 0

/-- The databases that an operation can leave behind. -/
inductive Commits (s : Registry) : Database → Prop
  | kept : Commits s s.db
  | installed {checked : Inspection} (now : ℚ) (h : checked.Checked)
      (habsent : s.db.packages.lookup checked.digest = none) :
      Commits s (s.db.install now checked)
  | disabled (digest : Digest) (entry : History) :
      Commits s ((s.db.disable digest).addHistory entry)
  | enabled {digest : Digest} {row : Package} {manifest : Manifest} {accepted : List Selection}
      {db : Database} (entry : History) (hrow : s.db.packages.lookup digest = some row)
      (hmanifest : Format.manifest row.manifest = some manifest)
      (hgrant : (((s.db.others manifest.id digest).foldl Database.disable s.db).disable
        digest).grant digest accepted = .ok db) : Commits s (db.addHistory entry)
  | removed {digest : Digest} (hlease : s.lease digest = 0) (now : ℚ) (packageId : String)
      (entry : History) :
      Commits s (((s.db.disable digest).addHistory entry).uninstall now packageId digest)

/-- A publication leaves the rows. -/
theorem wp_publish_db (s : Registry) (checked : Inspection) :
    wp (Registry.publish checked) (fun _ t => t.db = s.db) (fun _ t => t.db = s.db)
      (fun t => t.db = s.db) s := by
  simp only [Registry.publish, wp_bind, wp_disk, wp_ite]
  refine ⟨fun _ => ?_, fun _ => ?_⟩
  · rw [wp_check]
    exact ⟨fun _ _ => rfl, fun _ _ => rfl⟩
  · rw [wp_perform]
    refine ⟨rfl, wp_seq (wp_each (I := fun t => t.db = s.db) (fun action _ t ht => ?_) rfl)
      fun _ t ht => ?_⟩
    · have hkeeps : (Registry.onStage action t).db = s.db := by
        unfold Registry.onStage
        split <;> exact ht
      exact wp_perform.mpr ⟨hkeeps, hkeeps⟩
    · have hkeeps : (Registry.renameStage checked.digest t).db = s.db := by
        unfold Registry.renameStage
        split <;> exact ht
      exact wp_perform.mpr ⟨hkeeps, hkeeps⟩

omit [Format] in
/-- So does the removal of the files. -/
theorem wp_removeFiles_db (s : Registry) (digest : Digest) :
    wp (Registry.removeFiles digest) (fun _ t => t.db = s.db) (fun _ t => t.db = s.db)
      (fun t => t.db = s.db) s := by
  simp only [Registry.removeFiles, wp_bind, wp_disk, wp_demand]
  refine ⟨fun _ => trivial, fun directory _ => ?_⟩
  let kept : Registry → Prop := fun t => t.db = s.db
  have hall : wp (each (Registry.removals directory) fun change =>
      (perform (Registry.onDirectory digest change) : Operation Unit)) (fun _ => kept)
      (fun _ => kept) kept s :=
    wp_each (I := kept) (fun change _ t ht => wp_perform.mpr ⟨ht, ht⟩) rfl
  exact wp_mono hall (fun _ t ht => wp_perform.mpr ⟨ht, ht⟩) (fun _ _ h => h) fun _ h => h

/-- An installation commits once. -/
theorem wp_install_commits (s : Registry) (now : ℚ) (archive : Bytes) (expectedDigest : Digest) :
    wp (Registry.install now archive expectedDigest) (fun _ t => Commits s t.db)
      (fun _ t => Commits s t.db) (fun t => Commits s t.db) s := by
  simp only [Registry.install, wp_bind, wp_check, wp_refuseIf, wp_disk, wp_ite]
  refine ⟨fun checked hchecked => ⟨fun _ => .kept, fun _ => ⟨fun _ => ?_, fun habsent => ?_⟩⟩,
    fun _ _ => .kept⟩
  · exact ⟨fun _ _ => ⟨fun _ _ => .kept, fun _ _ => .kept⟩, fun _ _ => .kept⟩
  · have hinstalled : Commits s (s.db.install now checked) :=
      .installed now (inspectArchive_checked hchecked).1 (Option.not_isSome_iff_eq_none.mp habsent)
    simp only [Registry.installNew, wp_bind, wp_disk, wp_refuseIf, wp_check]
    refine ⟨fun _ => .kept, fun _ => ⟨fun used _ => ⟨fun _ => .kept, fun _ => ?_⟩,
      fun _ _ => .kept⟩⟩
    refine wp_mono (wp_publish_db s checked) (fun _ t ht => ?_) (fun _ t ht => ht ▸ .kept)
      fun t ht => ht ▸ .kept
    rw [wp_bind, wp_check]
    refine ⟨fun view _ => ?_, fun _ _ => ht ▸ .kept⟩
    rw [wp_bind, Registry.commit, wp_perform]
    exact ⟨hinstalled, wp_pure.mpr hinstalled⟩

theorem enabling_commits {s : Registry} {now : ℚ} {digest : Digest} {enabled : Bool}
    {grants : Option (List Selection)} {sandboxReady : Bool} {runtime : Except Error Unit}
    {db : Database}
    (h : s.enabling now digest enabled grants sandboxReady runtime = .ok db) : Commits s db := by
  simp only [Registry.enabling, bind_eq_ok] at h
  obtain ⟨current, hcurrent, accepted, -, h⟩ := h
  simp only [Database.get, Database.row, bind_eq_ok, orRaise_eq_ok] at hcurrent
  obtain ⟨row, hrow, manifest, hmanifest, hcurrent⟩ := hcurrent
  cases hcurrent
  split_ifs at h
  · obtain ⟨granted, hgranted, h⟩ := bind_eq_ok.mp h
    cases h
    exact .enabled _ hrow hmanifest hgranted
  · cases h
    exact .disabled digest _

theorem wp_setEnabled_commits (s : Registry) (now : ℚ) (digest : Digest) (enabled : Bool)
    (grants : Option (List Selection)) (sandboxReady : Bool) (runtime : Except Error Unit) :
    wp (Registry.setEnabled now digest enabled grants sandboxReady runtime)
      (fun _ t => Commits s t.db) (fun _ t => Commits s t.db) (fun t => Commits s t.db) s := by
  simp only [Registry.setEnabled, wp_bind, wp_disk, wp_check]
  refine ⟨fun db hdb => ⟨fun view _ => ?_, fun _ _ => .kept⟩, fun _ _ => .kept⟩
  rw [Registry.commit, wp_perform]
  exact ⟨enabling_commits hdb, wp_pure.mpr (enabling_commits hdb)⟩

/-- What `revoke` returns with. -/
theorem wp_revoke (s : Registry) (now : ℚ) (digest : Digest) :
    wp (Registry.revoke now digest)
      (fun _ t => ∃ entry, t = { s with db := (s.db.disable digest).addHistory entry })
      (fun _ t => t = s)
      (fun t => ∃ entry, t = { s with db := (s.db.disable digest).addHistory entry }) s := by
  simp only [Registry.revoke, Registry.setEnabled, wp_bind, wp_disk, wp_check]
  refine ⟨fun db hdb => ⟨fun view _ => ?_, fun _ _ => trivial⟩, fun _ _ => trivial⟩
  have hdb' : ∃ entry, db = (s.db.disable digest).addHistory entry := by
    simp only [Registry.enabling, bind_eq_ok] at hdb
    obtain ⟨current, -, accepted, -, hdb⟩ := hdb
    cases hdb
    exact ⟨_, rfl⟩
  obtain ⟨entry, rfl⟩ := hdb'
  rw [Registry.commit, wp_perform]
  exact ⟨⟨entry, rfl⟩, wp_pure.mpr ⟨entry, rfl⟩⟩

/-- So does a removal. -/
theorem wp_uninstall_commits (s : Registry) (now : ℚ) (digest : Digest) :
    wp (Registry.uninstall now digest) (fun _ t => Commits s t.db)
      (fun _ t => Commits s t.db) (fun t => Commits s t.db) s := by
  rw [Registry.uninstall, wp_bind]
  refine wp_mono (wp_revoke s now digest) ?_ (fun _ t ht => ht ▸ .kept) ?_
  · rintro - t ⟨entry, rfl⟩
    have hdisabled : Commits s ((s.db.disable digest).addHistory entry) := .disabled digest entry
    simp only [wp_bind, wp_disk, wp_refuseIf, wp_check]
    refine ⟨fun _ => hdisabled, fun hfree => ⟨fun current _ => ⟨fun _ _ => ?_,
      fun _ _ => hdisabled⟩, fun _ _ => hdisabled⟩⟩
    refine wp_mono (wp_removeFiles_db _ digest) (fun _ t ht => ?_) (fun _ t ht => ht ▸ hdisabled)
      fun t ht => ht ▸ hdisabled
    have hremoved : Commits s (((s.db.disable digest).addHistory entry).uninstall now
        current.manifest.id digest) := .removed (Nat.eq_zero_of_not_pos hfree) now _ entry
    exact wp_perform.mpr ⟨hremoved, hremoved⟩
  · rintro t ⟨entry, rfl⟩
    exact .disabled digest entry

theorem wp_acquire_commits (s : Registry) (digest : Digest) :
    wp (Registry.acquire digest) (fun _ t => Commits s t.db) (fun _ t => Commits s t.db)
      (fun t => Commits s t.db) s := by
  simp only [Registry.acquire, wp_bind, wp_disk, wp_check, wp_refuseIf, wp_perform, wp_pure]
  exact ⟨fun _ _ => ⟨fun _ => .kept, fun _ => ⟨fun _ _ => ⟨.kept, .kept⟩, fun _ _ => .kept⟩⟩,
    fun _ _ => .kept⟩

omit [Format] in
/-- Opening the registry leaves the database and the packages as they are. -/
theorem wp_reopen (s : Registry) (order : List Entry) :
    let kept : Registry → Prop := fun t => t.db = s.db ∧ t.directories = s.directories
    wp (Registry.reopen order) (fun _ => kept) (fun _ => kept) kept s := by
  intro kept
  have hstages : ∀ (rest : List Entry) (index : ℕ) (t : Registry), kept t →
      wp (Registry.recoverStages index rest) (fun _ => kept) (fun _ => kept) kept t := by
    intro rest
    induction rest with
    | nil => exact fun _ _ ht => wp_pure.mpr ht
    | cons entry rest ih =>
      intro index t ht
      cases entry with
      | package digest =>
        rw [Registry.recoverStages, wp_bind, wp_refuseIf]
        exact ⟨fun _ => ht, fun _ => ih _ t ht⟩
      | stage directory =>
        rw [Registry.recoverStages, wp_bind, wp_refuseIf]
        exact ⟨fun _ => ht, fun _ => wp_bind.mpr (wp_perform.mpr ⟨ht, ih _ _ ht⟩)⟩
  rw [Registry.reopen, wp_bind, wp_perform]
  refine ⟨⟨rfl, rfl⟩, wp_bind.mpr (wp_disk.mpr (wp_bind.mpr ?_))⟩
  refine wp_mono (hstages _ _ _ ⟨rfl, rfl⟩) (fun _ t ht => ?_) (fun _ _ h => h) fun _ h => h
  exact wp_perform.mpr ⟨ht, ht⟩

omit [Format] in
theorem Registry.db_leave (s next : Registry) (interruption : Interruption) :
    (s.leave next interruption).db = next.db := by
  cases interruption with
  | crash => rfl
  | failure cleaned =>
    rw [Registry.leave]
    split <;> rfl

omit [Format] in
/-- What an operation returns does not matter to a run. -/
theorem wp_discard {α : Type} {operation : Operation α} {I : Registry → Prop} {s : Registry}
    (h : wp operation (fun _ => I) (fun _ => I) I s) :
    wp (discard operation) (fun _ => I) (fun _ => I) I s :=
  wp_bind.mpr (wp_mono h (fun _ _ h => wp_pure.mpr h) (fun _ _ h => h) fun _ h => h)

/-- Wherever an operation stops, it leaves one of these databases behind. -/
theorem step_commits (s : Registry) (step : Step) : Commits s (s.step step).db := by
  have hwp : wp (Registry.operate step.event) (fun _ t => Commits s t.db)
      (fun _ t => Commits s t.db) (fun t => Commits s t.db) s := by
    cases step.event with
    | install now archive expectedDigest =>
      exact wp_discard (wp_install_commits s now archive expectedDigest)
    | setEnabled now digest enabled grants sandboxReady runtime =>
      exact wp_discard
        (wp_setEnabled_commits s now digest enabled grants sandboxReady runtime)
    | revoke now digest => exact wp_discard (wp_setEnabled_commits s now digest false none false _)
    | acquire digest => exact wp_discard (wp_acquire_commits s digest)
    | release digest =>
      refine wp_perform.mpr ?_
      dsimp only
      split <;> exact ⟨.kept, .kept⟩
    | uninstall now digest => exact wp_uninstall_commits s now digest
    | reopen order =>
      exact wp_mono (wp_reopen s order) (fun _ t ht => ht.1 ▸ .kept) (fun _ t ht => ht.1 ▸ .kept)
        fun t ht => ht.1 ▸ .kept
  have hcut : Commits s (cut (Registry.operate step.event) s (step.stopped.map Prod.fst)).db :=
    cut_of_wp hwp .kept _
  unfold Registry.step
  split_ifs with hallowed
  · cases hstopped : step.stopped with
    | none =>
      rw [hstopped] at hcut
      exact hcut
    | some stop =>
      rw [hstopped] at hcut
      show Commits s (s.leave _ stop.2).db
      rw [Registry.db_leave]
      exact hcut
  · exact .kept

end Commits

/-! ### Whole runs -/

section Runs

variable [Format]

/-- What holds of the database between operations. -/
structure Wellformed (db : Database) : Prop where
  named : ∀ {digest row}, db.packages.lookup digest = some row →
    ∃ manifest, Format.manifest row.manifest = some manifest ∧ manifest.id = row.packageId
  /-- One version of a package is enabled. -/
  one : ∀ {digest digest' row row'}, db.packages.lookup digest = some row →
    db.packages.lookup digest' = some row' → row.enabled = true → row'.enabled = true →
    row.packageId = row'.packageId → digest = digest'
  /-- Only enabled packages have grants. -/
  held : ∀ grant ∈ db.grants, ∃ row, db.packages.lookup grant.digest = some row ∧
    row.enabled = true
  bounded : db.grants.length ≤ MAX_GRANTS

variable {db : Database} {digest : Digest} {s : Registry}

theorem Wellformed.disable (h : Wellformed db) (digest : Digest) :
    Wellformed (db.disable digest) := by
  -- A row that is enabled afterwards is another one, and has not changed.
  have henabled : ∀ {k row}, (db.disable digest).packages.lookup k = some row →
      row.enabled = true → db.packages.lookup k = some row := by
    intro k row hlookup hon
    rw [Database.lookup_disable] at hlookup
    split_ifs at hlookup
    · obtain ⟨old, -, rfl⟩ := Option.map_eq_some_iff.mp hlookup
      cases hon
    · exact hlookup
  constructor
  · intro k row hlookup
    rw [Database.lookup_disable] at hlookup
    split_ifs at hlookup with hk
    · obtain ⟨old, hold, rfl⟩ := Option.map_eq_some_iff.mp hlookup
      obtain ⟨manifest, hmanifest, hid⟩ := h.named hold
      exact ⟨manifest, hmanifest, hid⟩
    · exact h.named hlookup
  · intro k k' row row' hrow hrow' hon hon' hid
    exact h.one (henabled hrow hon) (henabled hrow' hon') hon hon' hid
  · intro grant hgrant
    obtain ⟨hmem, hne⟩ := Database.mem_grants_disable.mp hgrant
    obtain ⟨row, hrow, hon⟩ := h.held grant hmem
    exact ⟨row, by rw [Database.lookup_disable, if_neg hne, hrow], hon⟩
  · exact (Database.length_grants_disable db digest).trans h.bounded

theorem Wellformed.disableAll (h : Wellformed db) (list : List Digest) :
    Wellformed (list.foldl Database.disable db) := by
  induction list generalizing db with
  | nil => exact h
  | cons digest list ih => exact ih (h.disable digest)

omit [Format] in
theorem mem_others {packageId : String} {k : Digest} :
    k ∈ db.others packageId digest ↔ ∃ row, db.packages.lookup k = some row ∧
      row.packageId = packageId ∧ row.enabled = true ∧ k ≠ digest := by
  simp only [Database.others, List.mem_map, List.mem_filter, Table.mem_rows, decide_eq_true_eq]
  constructor
  · rintro ⟨⟨k', row⟩, ⟨hrow, hid, hon, hne⟩, rfl⟩
    exact ⟨row, hrow, hid, hon, hne⟩
  · rintro ⟨row, hrow, hid, hon, hne⟩
    exact ⟨⟨k, row⟩, ⟨hrow, hid, hon, hne⟩, rfl⟩

omit [Format] in
/-- After the other versions are disabled no version of the package is enabled. -/
theorem not_enabled_of_others {packageId : String} {k : Digest} {row : Package}
    (hrow : (((db.others packageId digest).foldl Database.disable db).disable digest).packages.lookup k = some row)
    (hon : row.enabled = true) :
    row.packageId ≠ packageId := by
  rintro rfl
  rw [Database.lookup_disable] at hrow
  split_ifs at hrow with hk
  · obtain ⟨old, -, rfl⟩ := Option.map_eq_some_iff.mp hrow
    cases hon
  · rcases Database.lookup_disableAll hrow with ⟨hother, hlookup⟩ | ⟨hoff, -⟩
    · exact hother (mem_others.mpr ⟨row, hlookup, rfl, hon, hk⟩)
    · rw [hoff] at hon
      cases hon

theorem Commits.wellformed (h : Commits s db) (hs : Wellformed s.db) : Wellformed db := by
  cases h with
  | kept => exact hs
  | disabled digest entry =>
    obtain ⟨hnamed, hone, hheld, hbounded⟩ := hs.disable digest
    exact ⟨hnamed, hone, hheld, hbounded⟩
  | @installed checked now hchecked habsent =>
    have hlookup : ∀ k, (s.db.install now checked).packages.lookup k =
        if k = checked.digest then some ⟨checked.manifest.id, checked.manifest.version,
          checked.manifestBytes, now, false, 1⟩ else s.db.packages.lookup k :=
      fun k => Table.lookup_insert_eq _ _ _ _
    constructor
    · intro k row hrow
      rw [hlookup] at hrow
      split_ifs at hrow
      · cases hrow
        exact ⟨_, hchecked.manifest, rfl⟩
      · exact hs.named hrow
    · intro k k' row row' hrow hrow' hon hon' hid
      rw [hlookup] at hrow hrow'
      -- The new row is disabled.
      split_ifs at hrow
      · cases hrow
        cases hon
      · split_ifs at hrow'
        · cases hrow'
          cases hon'
        · exact hs.one hrow hrow' hon hon' hid
    · intro grant hgrant
      obtain ⟨row, hrow, hon⟩ := hs.held grant hgrant
      refine ⟨row, ?_, hon⟩
      rw [hlookup, if_neg, hrow]
      intro heq
      rw [heq, habsent] at hrow
      cases hrow
    · exact hs.bounded
  | @enabled digest row manifest accepted granted entry hrow hmanifest hgrant =>
    have hbase := (hs.disableAll (s.db.others manifest.id digest)).disable digest
    obtain ⟨hgrants, hbounded, hlookup⟩ := Database.grant_eq_ok hgrant
    -- The row that is enabled has the identity for which the others were disabled.
    have hid : row.packageId = manifest.id := by
      obtain ⟨found, hfound, hname⟩ := hs.named hrow
      rw [hmanifest] at hfound
      cases hfound
      exact hname.symm
    have hnew : ∀ {found}, granted.packages.lookup digest = some found →
        found.packageId = manifest.id ∧ found.manifest = row.manifest := by
      intro found hfound
      rw [hlookup, if_pos rfl, Database.lookup_disable, if_pos rfl] at hfound
      obtain ⟨off, hoff, rfl⟩ := Option.map_eq_some_iff.mp hfound
      obtain ⟨old, hold, rfl⟩ := Option.map_eq_some_iff.mp hoff
      rcases Database.lookup_disableAll hold with ⟨-, hsame⟩ | ⟨-, older, holder, hsame⟩
      · rw [hrow] at hsame
        cases hsame
        exact ⟨hid, rfl⟩
      · rw [hrow] at holder
        cases holder
        exact ⟨hsame.1.trans hid, hsame.2⟩
    -- Another version of the package cannot be enabled beside the new one.
    have hunique : ∀ {k found}, granted.packages.lookup k = some found → found.enabled = true →
        found.packageId = manifest.id → k = digest := by
      intro k found hfound hon hsame
      by_contra hk
      rw [hlookup, if_neg hk] at hfound
      exact not_enabled_of_others hfound hon hsame
    constructor
    · intro k found hfound
      by_cases hk : k = digest
      · subst hk
        obtain ⟨hname, hsame⟩ := hnew hfound
        exact ⟨manifest, hsame ▸ hmanifest, hname.symm⟩
      · rw [Database.addHistory, hlookup, if_neg hk] at hfound
        exact hbase.named hfound
    · intro k k' found found' hfound hfound' hon hon' hsame
      by_cases hk : k = digest
      · subst hk
        exact (hunique hfound' hon' (hsame.symm.trans (hnew hfound).1)).symm
      by_cases hk' : k' = digest
      · subst hk'
        exact absurd (hunique hfound hon (hsame.trans (hnew hfound').1)) hk
      · rw [Database.addHistory, hlookup, if_neg hk] at hfound
        rw [Database.addHistory, hlookup, if_neg hk'] at hfound'
        exact hbase.one hfound hfound' hon hon' hsame
    · intro grant hmem
      rw [Database.addHistory, hgrants, List.mem_append] at hmem
      rw [Database.addHistory, hlookup]
      rcases hmem with hold | hnew
      · obtain ⟨found, hfound, hon⟩ := hbase.held grant hold
        rw [if_neg (Database.mem_grants_disable.mp hold).2]
        exact ⟨found, hfound, hon⟩
      · rw [if_pos (Database.mem_rowsOf hnew)]
        obtain ⟨found, hfound, -⟩ := Database.advances_disableAll s.db
          (s.db.others manifest.id digest) digest row hrow
        refine ⟨{ found.disabled with enabled := true }, ?_, rfl⟩
        rw [Database.lookup_disable, if_pos rfl, hfound]
        rfl
    · exact hbounded
  | @removed digest hlease now packageId entry =>
    have hdisabled := hs.disable digest
    have hlookup : ∀ k, (((s.db.disable digest).addHistory entry).uninstall now packageId
        digest).packages.lookup k =
          if k = digest then none else (s.db.disable digest).packages.lookup k :=
      fun k => Table.lookup_erase_eq _ _ _
    constructor
    · intro k row hrow
      rw [hlookup] at hrow
      split_ifs at hrow
      exact hdisabled.named hrow
    · intro k k' row row' hrow hrow'
      rw [hlookup] at hrow hrow'
      split_ifs at hrow hrow'
      exact hdisabled.one hrow hrow'
    · intro grant hgrant
      rw [hlookup, if_neg (Database.mem_grants_disable.mp hgrant).2]
      exact hdisabled.held grant hgrant
    · exact hdisabled.bounded

/-- An operation removes a package, or its revision grows with every change. -/
theorem Commits.advances (h : Commits s db) (k : Digest) :
    (db.packages.lookup k = none ∧ s.lease k = 0) ∨ Database.Advances k s.db db := by
  cases h with
  | kept => exact .inr (.refl k s.db)
  | disabled digest entry => exact .inr (Database.advances_disable s.db digest k)
  | @installed checked now hchecked habsent =>
    refine .inr fun row hrow => ⟨row, ?_, .inr ⟨rfl, rfl⟩⟩
    have hne : k ≠ checked.digest := by
      rintro rfl
      rw [habsent] at hrow
      cases hrow
    exact (Table.lookup_insert_eq _ _ _ _).trans (by rw [if_neg hne, hrow])
  | @enabled digest row manifest accepted granted entry hrow hmanifest hgrant =>
    refine .inr ?_
    have hbase := (Database.advances_disableAll s.db (s.db.others manifest.id digest) k).trans
      (Database.advances_disable _ digest k)
    by_cases hk : k = digest
    · subst hk
      obtain ⟨-, -, hlookup⟩ := Database.grant_eq_ok hgrant
      intro old hold
      obtain ⟨mid, hmid, hgrown⟩ :=
        Database.advances_disableAll s.db (s.db.others manifest.id k) k old hold
      refine ⟨{ mid.disabled with enabled := true }, ?_, .inl ?_⟩
      · rw [Database.addHistory, hlookup, if_pos rfl, Database.lookup_disable, if_pos rfl, hmid]
        rfl
      · show old.revision < mid.revision + 1
        rcases hgrown with hless | ⟨rfl, -⟩
        · omega
        · omega
    · exact fun old hold => (hbase.trans (Database.advances_grant hgrant hk)) old hold
  | @removed digest hlease now packageId entry =>
    by_cases hk : k = digest
    · subst hk
      refine .inl ⟨?_, hlease⟩
      exact (Table.lookup_erase_eq _ _ _).trans (if_pos rfl)
    · refine .inr fun row hrow => ⟨row, ?_, .inr ⟨rfl, Database.grantsOf_disable s.db hk⟩⟩
      refine (Table.lookup_erase_eq _ _ _).trans ?_
      rw [if_neg hk]
      exact (Database.lookup_disable s.db digest k).trans (by rw [if_neg hk, hrow])

omit [Format] in
/-- The package has a row. -/
def Registry.Installed (s : Registry) (digest : Digest) : Prop :=
  (s.db.packages.lookup digest).isSome = true

/-- The states that a run goes through, the first and the last among them. -/
def moments (s : Registry) (steps : List Step) (n : ℕ) : Registry :=
  run Registry.step s (steps.take n)

/-- A run keeps the database well formed. -/
theorem wellformed_run (steps : List Step) :
    Wellformed (run Registry.step .initial steps).db := by
  refine run_invariant (I := fun s : Registry => Wellformed s.db)
    (fun s step hs => (step_commits s step).wellformed hs) ?_ steps
  refine ⟨fun {_ _} hrow => ?_, fun {_ _ _ _} hrow => ?_, nofun, Nat.zero_le _⟩
  · cases hrow
  · cases hrow

/-- While a package stays installed, its revision tells whether its grants have changed. -/
theorem advances_run {steps : List Step} (h : ∀ n, (moments s steps n).Installed digest) :
    Database.Advances digest s.db (run Registry.step s steps).db := by
  induction steps generalizing s with
  | nil => exact .refl digest s.db
  | cons step steps ih =>
    have hnext : ∀ n, (moments (s.step step) steps n).Installed digest := fun n => h (n + 1)
    rcases (step_commits s step).advances digest with ⟨hgone, -⟩ | hstep
    · have hhere : (s.step step).Installed digest := by
        have hfirst := h 1
        simpa [moments] using hfirst
      rw [Registry.Installed, hgone] at hhere
      cases hhere
    · exact hstep.trans (ih hnext)

/-- A package with a lease at every moment stays installed. -/
theorem installed_of_lease {steps : List Step} (hs : s.Installed digest)
    (h : ∀ n, 0 < (moments s steps n).lease digest) (n : ℕ) :
    (moments s steps n).Installed digest := by
  induction steps generalizing s n with
  | nil =>
    simp only [moments, List.take_nil]
    exact hs
  | cons step steps ih =>
    cases n with
    | zero => exact hs
    | succ n =>
      refine ih ?_ (fun m => h (m + 1)) n
      rcases (step_commits s step).advances digest with ⟨-, hfree⟩ | hstep
      · exact absurd hfree (Nat.pos_iff_ne_zero.mp (h 0))
      · obtain ⟨row, hrow⟩ := Option.isSome_iff_exists.mp hs
        obtain ⟨row', hrow', -⟩ := hstep row hrow
        exact Option.isSome_iff_exists.mpr ⟨row', hrow'⟩

/-- In every run at most one version of a package is enabled, only enabled packages have grants, and
the number of grants is bounded. A revision that was read while the package was enabled passes the
check later only if the grants were the same ones at every moment in between, as long as the package
has not been removed, and a package with a lease is not removed. -/
theorem grants_fenced (steps : List Step) :
    let s := run Registry.step .initial steps
    (∀ digest digest' row row', s.db.packages.lookup digest = some row →
      s.db.packages.lookup digest' = some row' → row.enabled = true → row'.enabled = true →
      row.packageId = row'.packageId → digest = digest') ∧
    (∀ grant ∈ s.db.grants, ∃ row, s.db.packages.lookup grant.digest = some row ∧
      row.enabled = true) ∧
    s.db.grants.length ≤ MAX_GRANTS ∧
    (∀ digest view later, s.db.get digest = .ok view → view.enabled = true →
      (∀ n, (moments s later n).Installed digest) →
      (run Registry.step s later).checkRevision digest view.revision = .ok () →
      ∀ n, (moments s later n).db.grantsOf digest = view.grants) ∧
    ∀ digest later, s.Installed digest → (∀ n, 0 < (moments s later n).lease digest) →
      ∀ n, (moments s later n).Installed digest := by
  intro s
  have hwell : Wellformed s.db := wellformed_run steps
  refine ⟨fun _ _ _ _ => hwell.one, hwell.held, hwell.bounded, ?_,
    fun _ _ => installed_of_lease⟩
  intro digest view later hview _ hinstalled hcheck n
  simp only [Database.get, Database.row, bind_eq_ok, orRaise_eq_ok] at hview
  obtain ⟨row, hrow, manifest, -, hview⟩ := hview
  cases hview
  simp only [Registry.checkRevision, Database.row, bind_eq_ok, orRaise_eq_ok, raiseIf_eq_ok,
    not_or, not_not] at hcheck
  obtain ⟨last, hlast, -, hrevision⟩ := hcheck
  -- The revision cannot have been lower at the start or higher at the end.
  have hbefore : Database.Advances digest s.db (moments s later n).db := by
    refine advances_run fun m => ?_
    have hmoment := hinstalled (min m n)
    simpa only [moments, List.take_take] using hmoment
  have hafter : Database.Advances digest (moments s later n).db (run Registry.step s later).db := by
    have hrest : run Registry.step s later =
        run Registry.step (moments s later n) (later.drop n) := by
      rw [moments, ← run_append Registry.step s, List.take_append_drop]
    rw [hrest]
    refine advances_run fun m => ?_
    have hmoment := hinstalled (n + m)
    simpa only [moments, List.take_add, run_append] using hmoment
  obtain ⟨mid, hmid, hgrown⟩ := hbefore row hrow
  obtain ⟨last', hlast', hgrown'⟩ := hafter mid hmid
  rw [hlast] at hlast'
  cases hlast'
  rcases hgrown with hless | ⟨-, hgrants⟩
  · exfalso
    have hle : mid.revision ≤ last.revision := by
      rcases hgrown' with hless' | ⟨rfl, -⟩
      · exact hless'.le
      · exact le_rfl
    have hsame : last.revision = row.revision := hrevision
    omega
  · exact hgrants

end Runs

namespace Example

/-- A format in which an archive has only its manifest. -/
scoped instance format : Format where
  sha256 data := BitVec.ofNat 256 (data.foldl (fun hash byte => 257 * hash + byte.toNat + 1) 7)
  members data := some [(manifestName, data)]
  members_nodup data list h := by
    cases h
    simp
  manifest _ :=
    some ⟨"org.example.notes", "1.0.0", .declarative, none, ["workspace:read"], [], []⟩

def archive : Bytes := [110, 111, 116, 101, 115]

def digest : Digest := Format.sha256 archive

/-- The package is installed and enabled for one workspace. -/
def enabling (target : String) : List Step :=
  [⟨.install 0 archive digest, none⟩,
    ⟨.setEnabled 0 digest true (some [⟨"workspace:read", [target]⟩]) false (.ok ()), none⟩]

/-- The package is removed, and installed and enabled again for another workspace. -/
def replaced : List Step := ⟨.uninstall 0 digest, none⟩ :: enabling "workspace-b"

/-- A revision is used again for other grants when the package is removed in between. -/
theorem not_grants_fenced_removed :
    ¬∀ (steps later : List Step) (digest : Digest) (view : View),
      let s := run Registry.step .initial steps
      s.db.get digest = .ok view → view.enabled = true →
      (run Registry.step s later).checkRevision digest view.revision = .ok () →
      ∀ n, (moments s later n).db.grantsOf digest = view.grants := by
  intro h
  have hsame := h (enabling "workspace-a") replaced digest
    ⟨digest, ⟨"org.example.notes", "1.0.0", .declarative, none, ["workspace:read"], [], []⟩, true,
      2, 0, [⟨digest, "workspace:read", "workspace-a"⟩]⟩ (by decide +kernel) rfl
      (by decide +kernel) 3
  revert hsame
  decide +kernel

end Example

end Ficc.Modules
