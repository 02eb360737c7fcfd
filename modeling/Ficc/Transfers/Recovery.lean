import Ficc.Transfers.Integrity

/-!
# Recovery of commits

A commit from the running state has four durable steps before it looks at the destination: it
shortens the partial file and the journal, writes its record, and lets the files change places. A
commit that is stopped anywhere and sent again succeeds, with one exception: when it was stopped
after its third step, the record says that the commit has begun, but the files are still where they
were. Then every further commit finds the wrong file at the destination.

`commit_recoverable` says that this is the only exception, and that a run in which it does not
happen never leaves a transfer in a commit that cannot be finished.
-/

namespace Ficc.Transfers.Node

open Execution (Identity Digest Hash)
open Durable

section Courses

variable [Hashing] {old : Option File} {requested : Digest → Prop} {stuck : Prop} {s : Node}
  {record : Record} {kernel : Kernel}

/-- The partial file after it was shortened. -/
def shortened (kernel : Kernel) (record : Record) (file : File) : File :=
  { file with content := file.content.take record.offset, stamp := kernel.stamp }

/-- The state after the partial file was shortened. -/
def afterData (kernel : Kernel) (record : Record) (file : File) (s : Node) : Node :=
  setData (some (shortened kernel record file)) s

/-- The state after the journal was shortened, too. -/
def afterChunks (kernel : Kernel) (record : Record) (file : File) (chunks : List Digest)
    (s : Node) : Node :=
  setChunks (some (chunks.take (journalEntries record.offset))) (afterData kernel record file s)

/-- The record that a commit writes. -/
def committing (kernel : Kernel) (record : Record) (file : File) (hashed : Digest) : Record :=
  { record with
    committedIdentity := some (shortened kernel record file).identity, state := .committing
    sha256 := some hashed }

variable {chunks : List Digest} {file : File} {hashed : Digest}

omit [Hashing] in
theorem staging_afterChunks (h : s.staging = some ⟨some file, some chunks⟩) :
    (afterChunks kernel record file chunks s).staging =
      some ⟨some (shortened kernel record file),
        some (chunks.take (journalEntries record.offset))⟩ := by
  simp [afterChunks, afterData, setChunks, setData, h]

/-- The verification of a complete file. -/
theorem verifyPrefix_eq (hcomplete : record.offset = record.size)
    (hstaging : s.staging = some ⟨some file, some chunks⟩)
    (hread : readPrefix record file.content chunks = .ok hashed) :
    verifyPrefix kernel record s =
      ⟨[afterData kernel record file s, afterChunks kernel record file chunks s], .ok hashed⟩ := by
  simp [verifyPrefix, dataFile, journal, stage, disk, demand, check, orRaise, hstaging, hread,
    hcomplete, bind, followedBy, perform, pure, returns, afterChunks, afterData, shortened]

omit [Hashing] in
theorem requireDestination_eq (h : record.expected = s.destination.map File.identity) :
    requireDestination record s = ⟨[], .ok ()⟩ := by
  cases hdestination : s.destination <;>
    simp [requireDestination, disk, demand, check, refuseIf, orRaise, raiseIf, same, bind,
      followedBy, h, hdestination]

/-- The course of the first half of a commit that is not refused. -/
theorem publish_eq (hcomplete : record.offset = record.size)
    (hexpected : record.expected = s.destination.map File.identity)
    (hstaging : s.staging = some ⟨some file, some chunks⟩)
    (hread : readPrefix record file.content chunks = .ok hashed) :
    let t := afterChunks kernel record file chunks s
    let next := committing kernel record file hashed
    publish kernel (some hashed) record s =
      ⟨[afterData kernel record file s, t, { t with record := some next },
        exchanged kernel (shortened kernel record file) { t with record := some next }],
        .ok next⟩ := by
  intro t next
  have ht : t.staging = some ⟨some (shortened kernel record file),
      some (chunks.take (journalEntries record.offset))⟩ := staging_afterChunks hstaging
  have hrefuse : refuseIf (some hashed ≠ some hashed)
      (.error "digest_mismatch" "Source and destination digests do not match.") t =
        (⟨[], .ok ()⟩ : Course Node FileError Unit) := by
    simp [refuseIf, check, raiseIf]
  have hfile : dataFile t = ⟨[], .ok (shortened kernel record file)⟩ := by
    simp [dataFile, stage, disk, demand, check, orRaise, bind, followedBy, ht]
  have hrequire : requireDestination record t = ⟨[], .ok ()⟩ := requireDestination_eq hexpected
  -- The two durable steps between which a commit must not be stopped.
  let finish : Action Record := do
    save next
    rename kernel next.expected.isSome
    pure next
  have hfinish : finish t = ⟨[{ t with record := some next },
      exchanged kernel (shortened kernel record file) { t with record := some next }],
        .ok next⟩ := by
    have hsave : save next t = ⟨[{ t with record := some next }], .ok ()⟩ := rfl
    have hrename : rename kernel next.expected.isSome { t with record := some next } =
        ⟨[exchanged kernel (shortened kernel record file) { t with record := some next }],
          .ok ()⟩ := rename_eq hexpected ht
    simp only [finish]
    rw [bind_eq_of_ok hsave, last_singleton, bind_eq_of_ok hrename]
    rfl
  calc publish kernel (some hashed) record s
      = ⟨[afterData kernel record file s, t] ++ (finish t).states, (finish t).result⟩ := by
        rw [publish, bind_eq_of_ok (verifyPrefix_eq hcomplete hstaging hread)]
        have hlast : last s [afterData kernel record file s, t] = t := rfl
        rw [hlast, bind_eq_of_ok hrefuse, last_nil, bind_eq_of_ok hfile, last_nil,
          bind_eq_of_ok hrequire]
        rfl
    _ = _ := by
        rw [hfinish]
        rfl

/-- A commit that passes its first checks. -/
theorem commit_eq_bind (hstate : record.state = .running ∨ record.state = .committing)
    (hcomplete : record.offset = record.size) {folder : Stage} (hfolder : s.staging = some folder)
    (digest : Option Digest) :
    commit kernel record digest s =
      ((if record.state = .running then publish kernel digest record else pure record) >>=
        conclude) s := by
  have hnot : record.state ≠ .succeeded := by
    obtain hstate | hstate := hstate <;> simp [hstate]
  have hstage : stage s = ⟨[], .ok folder⟩ := by
    simp [stage, disk, demand, check, orRaise, hfolder, bind, followedBy]
  rw [commit, if_neg hnot, bind_eq_of_read (a := ()), bind_eq_of_read hstage]
  · by_cases hrunning : record.state = .running
    · simp only [if_pos hrunning]
      rfl
    · simp only [if_neg hrunning]
      rfl
  · simp [refuseIf, check, raiseIf, hcomplete, hstate]

/-- A commit that has begun is concluded. -/
theorem commit_eq_conclude (hstate : record.state = .committing)
    (hcomplete : record.offset = record.size) {folder : Stage} (hfolder : s.staging = some folder)
    (digest : Option Digest) : commit kernel record digest s = conclude record s := by
  rw [commit_eq_bind (.inr hstate) hcomplete hfolder, if_neg (by simp [hstate])]
  exact bind_eq_of_read rfl

/-- The course of a commit that is not refused. -/
theorem commit_eq (hstate : record.state = .running) (hcomplete : record.offset = record.size)
    (hexpected : record.expected = s.destination.map File.identity)
    (hstaging : s.staging = some ⟨some file, some chunks⟩)
    (hread : readPrefix record file.content chunks = .ok hashed) :
    let t := afterChunks kernel record file chunks s
    let next := committing kernel record file hashed
    let moved := exchanged kernel (shortened kernel record file) { t with record := some next }
    commit kernel record (some hashed) s =
      ⟨[afterData kernel record file s, t, { t with record := some next }, moved] ++
        (conclude next moved).states, (conclude next moved).result⟩ := by
  intro t next moved
  rw [commit_eq_bind (.inl hstate) hcomplete hstaging, if_pos hstate,
    bind_eq_of_ok (publish_eq hcomplete hexpected hstaging hread)]
  rfl

end Courses

section Success

variable [Hashing] {old : Option File} {requested : Digest → Prop} {stuck : Prop} {s : Node}
  {record : Record} {kernel : Kernel}

/-- A program returns a record of a transfer that succeeded. -/
def Succeeds (p : Action Record) (s : Node) : Prop :=
  ∃ reply, (p s).result = .ok reply ∧ reply.state = .succeeded

omit [Hashing] in
/-- The cleanup does not change whether a transfer succeeded. -/
theorem wp_cleanup_state (hstate : record.state = .succeeded) :
    wp (recovering (cleanup record) record) (fun reply _ => reply.state = .succeeded)
      (fun _ _ => False) (fun _ => True) s := by
  rw [wp_recovering, cleanup, wp_ite]
  refine ⟨fun _ => wp_pure.mpr hstate, fun _ => ?_⟩
  have hstage : wp (removeStage record) (fun _ _ => True) (fun _ _ => record.state = .succeeded)
      (fun _ => True) s := by
    refine ⟨fun _ _ => trivial, ?_⟩
    cases (removeStage record s).result with
    | ok => trivial
    | error => exact hstate
  refine wp_seq hstage fun _ t _ => ?_
  rw [wp_bind, wp_save, wp_pure]
  exact ⟨trivial, hstate⟩

/-- A commit whose files have changed places is finished by another commit. -/
theorem Kept.succeeds_conclude (h : Kept old requested False s record)
    (hstate : record.state = .committing) : Succeeds (conclude record) s := by
  have hwp : wp (conclude record) (fun reply _ => reply.state = .succeeded)
      (fun _ _ => False) (fun _ => True) s := by
    cases h.phase with
    | unprepared hother => rw [hstate] at hother; simp at hother
    | receiving hother => rw [hstate] at hother; simp at hother
    | recorded hstuck => exact hstuck.elim
    | renamed _ file hdestination hcommitted hdisplaced hmoved =>
      obtain ⟨identity, hidentity, hino, hregular⟩ := hcommitted.committed
      have hdisplacement : wp (requireDisplaced record) (fun _ t => t = s) (fun _ _ => False)
          (fun _ => True) s := by
        unfold requireDisplaced
        rw [h.expected]
        cases hold : old with
        | none => simp only [Option.map_none, wp_pure]
        | some f =>
          obtain ⟨moved, hdata⟩ := Option.isSome_iff_exists.mp (hdisplaced (by rw [hold]; rfl))
          obtain ⟨f', hold', hino', hregular', -⟩ := hmoved moved hdata
          obtain rfl : f = f' := Option.some.inj (hold.symm.trans hold')
          obtain ⟨folder, hfolder, hfile⟩ := Option.bind_eq_some_iff.mp hdata
          have hsame : same moved.identity f.identity true = true := by
            simp [same, File.identity, hino', hregular']
          simp only [Option.map_some, dataFile, wp_bind, wp_stage, hfolder, wp_demand, wp_refuseIf]
          refine ⟨(by rintro ⟨⟩), fun other hother => ?_⟩
          obtain rfl := Option.some.inj hother
          refine ⟨fun hnone => by simp [hfile] at hnone, fun found hfound => ?_⟩
          obtain rfl : moved = found := Option.some.inj (hfile.symm.trans hfound)
          exact ⟨fun hbad => by simp [hsame] at hbad, fun _ => trivial⟩
      simp only [conclude, confirm, wp_bind, wp_disk, wp_demand, wp_refuseIf, hdestination]
      refine ⟨(by rintro ⟨⟩), fun published hpublished => ?_⟩
      obtain rfl := Option.some.inj hpublished
      refine ⟨fun hbad => ?_, fun _ => ?_⟩
      · simp [hidentity, same, File.identity, hino, hregular, hcommitted.digest,
          hcommitted.content] at hbad
      · refine wp_mono hdisplacement (fun _ t ht => ?_) (fun _ _ h => h) fun _ h => h
        rw [wp_bind, wp_save, wp_pure]
        exact ⟨trivial, wp_cleanup_state rfl⟩
    | succeeded hother => rw [hstate] at hother; cases hother
    | discarded hother => rw [hstate] at hother; simp at hother
  obtain ⟨reply, hresult, hreply⟩ := returns_of_wp hwp
  exact ⟨reply, hresult, hreply⟩

/-- As long as the files have not changed places, a commit that has begun raises. -/
theorem Committed.wp_conclude {accepted : Bytes} {file : File}
    (h : Committed old requested accepted record file) (hdestination : s.destination = old) :
    wp (conclude record) (fun _ _ => False) (fun _ _ => True) (fun _ => True) s := by
  obtain ⟨identity, hidentity, hino, -⟩ := h.committed
  simp only [conclude, confirm, wp_bind, wp_disk, wp_demand, wp_refuseIf]
  refine ⟨fun _ => trivial, fun found hfound => ⟨fun _ => trivial, fun hbad => ?_⟩⟩
  -- The destination has another inode than the one that was committed.
  have hother : same found.identity identity true = false := by
    have hne : found.ino ≠ identity.ino := fun heq =>
      h.apart found (hdestination.symm.trans hfound) (hino.symm.trans heq.symm)
    simp [same, File.identity, hne]
  simp [hidentity, hother] at hbad

/-- A transfer that is complete and verified, so that a commit with the digest is not refused. -/
structure Ripe (old : Option File) (s : Node) (record : Record) (digest : Digest) (file : File)
    (chunks : List Digest) : Prop where
  filling : Filling old s record file
  staging : s.staging = some ⟨some file, some chunks⟩
  read : readPrefix record file.content chunks = .ok digest
  complete : record.offset = record.size

variable {digest : Digest} {file : File} {chunks : List Digest}

theorem Ripe.expected (h : Ripe old s record digest file chunks) :
    record.expected = s.destination.map File.identity := by
  rw [h.filling.destination]
  exact h.filling.expected

/-- Shortening the partial file changes nothing for a commit. -/
theorem Ripe.afterData (h : Ripe old s record digest file chunks) :
    Ripe old (afterData kernel record file s) record digest (shortened kernel record file)
      chunks := by
  refine ⟨h.filling.write h.staging kernel.stamp ?_, ?_, ?_, h.complete⟩
  · rw [List.take_take, Nat.min_self]
    exact h.filling.content
  · simp [Node.afterData, setData, h.staging]
  · exact (readPrefix_take record file.content chunks).1.trans h.read

/-- Neither does shortening the journal. -/
theorem Ripe.afterChunks (h : Ripe old s record digest file chunks) :
    Ripe old (afterChunks kernel record file chunks s) record digest (shortened kernel record file)
      (chunks.take (journalEntries record.offset)) := by
  have hdata : Ripe old (Node.afterData kernel record file s) record digest
      (shortened kernel record file) chunks := h.afterData
  refine ⟨hdata.filling.enter _, staging_afterChunks h.staging, ?_, h.complete⟩
  exact (readPrefix_take record _ chunks).2.trans hdata.read

/-- The state after the third durable step of a commit: the record is written. -/
def recorded (kernel : Kernel) (record : Record) (file : File) (chunks : List Digest)
    (digest : Digest) (s : Node) : Node :=
  { Node.afterChunks kernel record file chunks s with
    record := some (committing kernel record file digest) }

/-- A ripe transfer can be committed. -/
theorem Ripe.committed (h : Ripe old s record digest file chunks) (hrequested : requested digest) :
    Committed old requested s.accepted (committing kernel record file digest)
      (shortened kernel record file) := by
  have hdigest : digest = Hashing.sha256 s.accepted := by
    rw [← h.filling.content]
    exact readPrefix_eq_ok h.read
  exact ⟨h.filling.content, h.complete, h.filling.prepared, congrArg some hdigest,
    hdigest ▸ hrequested, ⟨(shortened kernel record file).identity, rfl, rfl, rfl⟩, h.filling.apart⟩

theorem Ripe.kept_recorded (h : Ripe old s record digest file chunks)
    (hrequested : requested digest) :
    Kept old requested True (recorded kernel record file chunks digest s)
      (committing kernel record file digest) := by
  have hripe : Ripe old (Node.afterChunks kernel record file chunks s) record digest _ _ :=
    h.afterChunks
  exact ⟨rfl, h.filling.expected, h.filling.length, fun _ => by simp [recorded, hripe.staging],
    .recorded trivial rfl h.filling.destination _ hripe.filling.data (h.committed hrequested)⟩

/-- After the fourth durable step the files have changed places. -/
theorem Ripe.kept_exchanged (h : Ripe old s record digest file chunks)
    (hrequested : requested digest) :
    Kept old requested stuck (exchanged kernel (shortened kernel record file)
      (recorded kernel record file chunks digest s)) (committing kernel record file digest) :=
  (h.kept_recorded hrequested).exchanged rfl h.filling.destination (staging_afterChunks h.staging)
    (h.committed hrequested)

/-- The course of a commit of a complete transfer. -/
theorem Ripe.commit_eq (h : Ripe old s record digest file chunks) :
    let next := committing kernel record file digest
    let moved := exchanged kernel (shortened kernel record file)
      (recorded kernel record file chunks digest s)
    commit kernel record (some digest) s =
      ⟨[Node.afterData kernel record file s, Node.afterChunks kernel record file chunks s,
        recorded kernel record file chunks digest s, moved] ++ (conclude next moved).states,
        (conclude next moved).result⟩ :=
  Node.commit_eq h.filling.state h.complete h.expected h.staging h.read

/-- Its commit succeeds. -/
theorem Ripe.succeeds (h : Ripe old s record digest file chunks) (kernel : Kernel) :
    Succeeds (commit kernel record (some digest)) s := by
  have hmoved : Kept old (fun _ => True) False (exchanged kernel (shortened kernel record file)
      (recorded kernel record file chunks digest s)) (committing kernel record file digest) :=
    h.kept_exchanged trivial
  obtain ⟨reply, hreply, hstate⟩ := hmoved.succeeds_conclude rfl
  refine ⟨reply, ?_, hstate⟩
  rw [h.commit_eq]
  exact hreply

/-- A commit that returns is one of a complete transfer, with the digest that it has. -/
theorem Kept.ripe (h : Kept old requested stuck s record) (hstate : record.state = .running)
    {digest : Option Digest} (hsucceeds : Succeeds (commit kernel record digest) s) :
    ∃ hashed file chunks, digest = some hashed ∧ Ripe old s record hashed file chunks := by
  have hwp : wp (commit kernel record digest)
      (fun _ _ => record.offset = record.size ∧ ∃ hashed, digest = some hashed ∧
        Verified s record hashed) (fun _ _ => True) (fun _ => True) s := by
    rw [commit, if_neg (by simp [hstate])]
    simp only [wp_bind, wp_refuseIf, wp_stage]
    refine ⟨fun _ => trivial, fun hready => ⟨fun _ => trivial, fun _ _ => ?_⟩⟩
    have hcomplete : record.offset = record.size := not_not.mp (not_or.mp hready).1
    rw [if_pos hstate, wp_bind, publish, wp_bind]
    refine wp_mono h.wp_verifyPrefix ?_ (fun _ _ _ => trivial) fun _ _ => trivial
    rintro hashed t ⟨-, hverified, -⟩
    rw [wp_bind, wp_refuseIf]
    refine ⟨fun _ => trivial, fun hdigest => ?_⟩
    rw [← wp_bind]
    exact wp_known ⟨hcomplete, hashed, not_not.mp hdigest, hverified⟩ _
  obtain ⟨reply, hreply, -⟩ := hsucceeds
  obtain ⟨hcomplete, hashed, hdigest, file, chunks, hstaging, hread⟩ := result_of_wp hwp hreply
  obtain ⟨found, hfilling⟩ := h.filling hstate
  obtain rfl : found = file :=
    Option.some.inj (hfilling.data.symm.trans (data_of_staging hstaging))
  exact ⟨hashed, found, chunks, hdigest, hfilling, hstaging, hread, hcomplete⟩

end Success

section Runs

variable [Hashing] {old : Option File} {requested : Digest → Prop} {stuck : Prop} {s : Node}
  {record : Record} {kernel : Kernel} {root : Root} {digest : Option Digest}

/-- The transfer is over. -/
def Over (s : Node) : Prop := ∃ record, s.record = some record ∧ record.state.Terminal

/-- A commit of the transfer has begun, or it succeeded. -/
def Finishing (rootId : Identity) (s : Node) : Prop :=
  ∃ record, s.record = some record ∧ record.rootId = rootId ∧
    (record.state = .committing ∨ record.state = .succeeded)

omit [Hashing] in
theorem wp_removeStage_record {P : Node → Prop} (hs : P s)
    (hP : ∀ t u : Node, u.record = t.record → u.accepted = t.accepted → P t → P u) :
    wp (removeStage record) (fun _ => P) (fun _ => P) P s := by
  simp only [removeStage, wp_bind, wp_disk]
  cases s.staging with
  | none => exact wp_pure.mpr hs
  | some folder =>
    have hdisplaced : wp (removeDisplaced record folder) (fun _ => P) (fun _ => P) P s := by
      unfold removeDisplaced
      cases folder.data with
      | none => exact wp_pure.mpr hs
      | some file =>
        simp only [wp_bind, wp_refuseIf, wp_perform]
        exact ⟨fun _ => hs, fun _ => ⟨hP s _ rfl rfl hs, hP s _ rfl rfl hs⟩⟩
    refine wp_seq hdisplaced fun _ t ht => ?_
    simp only [wp_bind, wp_perform]
    exact ⟨hP t _ rfl rfl ht, hP t _ rfl rfl ht, hP t _ rfl rfl ht⟩

omit [Hashing] in
/-- The cleanup changes the record only in that it is no longer pending. -/
theorem wp_cleanup_record {P : Node → Prop} (hs : P s)
    (hP : ∀ t u : Node, u.record = t.record → u.accepted = t.accepted → P t → P u)
    (hdone : ∀ t : Node, P t → P { t with record := some { record with cleanupPending := false } }) :
    wp (cleanup record) (fun _ => P) (fun _ => P) P s := by
  rw [cleanup, wp_ite]
  refine ⟨fun _ => wp_pure.mpr hs, fun _ => wp_seq (wp_removeStage_record hs hP) fun _ t ht => ?_⟩
  rw [wp_bind, wp_save, wp_pure]
  exact ⟨hdone t ht, hdone t ht⟩

omit [Hashing] in
theorem wp_requireDisplaced_eq :
    wp (requireDisplaced record) (fun _ t => t = s) (fun _ t => t = s) (fun t => t = s) s := by
  unfold requireDisplaced
  cases record.expected with
  | none => exact wp_pure.mpr rfl
  | some expected =>
    refine wp_bind.mpr (wp_dataFile rfl fun _ _ _ _ => ?_)
    rw [wp_refuseIf]
    exact ⟨fun _ => rfl, fun _ => rfl⟩

/-- A commit that has begun does not go back. -/
theorem wp_conclude_finishing (hrecord : s.record = some record)
    (hstate : record.state = .committing) :
    wp (conclude record) (fun _ => Finishing record.rootId) (fun _ => Finishing record.rootId)
      (Finishing record.rootId) s := by
  have hs : Finishing record.rootId s := ⟨record, hrecord, rfl, .inl hstate⟩
  simp only [conclude, confirm, wp_bind, wp_disk, wp_demand, wp_refuseIf]
  refine ⟨fun _ => hs, fun published _ => ⟨fun _ => hs, fun _ => ?_⟩⟩
  refine wp_mono wp_requireDisplaced_eq (fun _ t ht => ?_) (fun _ t ht => ht ▸ hs)
    fun t ht => ht ▸ hs
  rw [wp_bind, wp_save, wp_pure, wp_recovering]
  have hnext {t : Node} {next : Record} (hnext : t.record = some next)
      (hroot : next.rootId = record.rootId) (hsucceeded : next.state = .succeeded) :
      Finishing record.rootId t := ⟨next, hnext, hroot, .inr hsucceeded⟩
  refine ⟨hnext rfl rfl rfl, ?_⟩
  refine wp_cleanup_record (hnext rfl rfl rfl) ?_ fun t _ => hnext rfl rfl rfl
  rintro t u hsame - ⟨r, hr, hroot, hstate⟩
  exact ⟨r, hsame.trans hr, hroot, hstate⟩

variable [Hash (Root × Spec)]

/-- A commit is about the record that is there, or it is refused at once. -/
theorem dispatch_commit_cases (s : Node) (kernel : Kernel) (root : Root) (digest : Option Digest) :
    (∃ record, s.record = some record ∧ record.rootId = root.id ∧
      dispatch kernel root (.commit digest) s = commit kernel record digest s) ∨
    ∃ error, dispatch kernel root (.commit digest) s = ⟨[], .error error⟩ := by
  cases hrecord : s.record with
  | none =>
    refine .inr ⟨.error "transfer_missing" "The transfer receipt is unavailable.", ?_⟩
    simp [dispatch, disk, demand, check, orRaise, hrecord, bind, followedBy]
  | some record =>
    by_cases hroot : record.rootId = root.id
    · refine .inl ⟨record, rfl, hroot, ?_⟩
      simp [dispatch, disk, demand, check, refuseIf, raiseIf, orRaise, hrecord, hroot, bind,
        followedBy]
    · refine .inr ⟨.error "transfer_missing" "The transfer receipt is unavailable.", ?_⟩
      simp [dispatch, disk, demand, check, refuseIf, raiseIf, orRaise, hrecord, hroot, bind,
        followedBy]

theorem dispatch_commit (hrecord : s.record = some record) (hroot : record.rootId = root.id) :
    dispatch kernel root (.commit digest) s = commit kernel record digest s := by
  simp [dispatch, disk, demand, check, refuseIf, raiseIf, orRaise, hrecord, hroot, bind, followedBy]

/-- A commit that has begun is finished by another one, unless the files are still where they
were. -/
theorem Sound.succeeds (h : Sound old requested False s) (hfinishing : Finishing root.id s) :
    Succeeds (dispatch kernel root (.commit digest)) s := by
  obtain ⟨record, hrecord, hroot, hstate⟩ := hfinishing
  have hkept := h.kept_of_record hrecord
  rw [Succeeds, dispatch_commit hrecord hroot]
  obtain hstate | hstate := hstate
  · obtain ⟨folder, hfolder⟩ := Option.ne_none_iff_exists'.mp (hkept.staged hstate)
    have hcomplete : record.offset = record.size := by
      cases hkept.phase with
      | unprepared hother => rw [hstate] at hother; simp at hother
      | receiving hother => rw [hstate] at hother; simp at hother
      | recorded hstuck => exact hstuck.elim
      | renamed _ _ _ hcommitted => exact hcommitted.complete
      | succeeded hother => rw [hstate] at hother; cases hother
      | discarded hother => rw [hstate] at hother; simp at hother
    rw [commit_eq_conclude hstate hcomplete hfolder]
    exact hkept.succeeds_conclude hstate
  · rw [commit, if_pos hstate]
    exact ⟨record, rfl, hstate⟩

omit [Hash (Root × Spec)] in
/-- Where a stop leaves the commit of a complete transfer. -/
theorem Ripe.cut_commit {hashed : Digest} {file : File} {chunks : List Digest}
    (h : Ripe old s record hashed file chunks) (hrequested : requested hashed) (stop : Option ℕ) :
    (stop ≠ some 3 ∧ ∃ file chunks,
      Ripe old (cut (commit kernel record (some hashed)) s stop) record hashed file chunks) ∨
    (stop = some 3 ∧ cut (commit kernel record (some hashed)) s stop =
      recorded kernel record file chunks hashed s) ∨
    (stop ≠ some 3 ∧ Sound old requested False (cut (commit kernel record (some hashed)) s stop) ∧
      Finishing record.rootId (cut (commit kernel record (some hashed)) s stop)) := by
  have hmoved : Kept old requested False (exchanged kernel (shortened kernel record file)
      (recorded kernel record file chunks hashed s)) (committing kernel record file hashed) :=
    h.kept_exchanged hrequested
  have hfinish := wp_and (hmoved.wp_conclude rfl) (wp_conclude_finishing hmoved.record_eq rfl)
  -- From the fourth durable step on, the rest of the commit is a commit that has begun.
  have hrest (rest : Option ℕ) := cut_of_wp hfinish
    ⟨.kept _ hmoved, _, hmoved.record_eq, rfl, .inl rfl⟩ rest
  match stop with
  | none =>
    refine .inr (.inr ⟨nofun, ?_⟩)
    rw [cut, h.commit_eq, last_append]
    exact hrest none
  | some 0 => exact .inl ⟨by simp, file, chunks, h⟩
  | some 1 =>
    rw [cut, h.commit_eq]
    exact .inl ⟨by simp, _, _, h.afterData⟩
  | some 2 =>
    rw [cut, h.commit_eq]
    exact .inl ⟨by simp, _, _, h.afterChunks⟩
  | some 3 =>
    refine .inr (.inl ⟨rfl, ?_⟩)
    rw [cut, h.commit_eq]
    rfl
  | some (n + 4) =>
    refine .inr (.inr ⟨by simp, ?_⟩)
    rw [cut, h.commit_eq]
    simp only [List.cons_append, List.nil_append, List.take_succ_cons, last_cons]
    exact hrest (some n)

/-- The record is that of a transfer that accepts chunks. -/
def Running (s : Node) : Prop := ∃ record, s.record = some record ∧ record.state = .running

/-- What is over stays over. -/
theorem Over.wp_dispatch (h : Over s) (request : Request) :
    wp (dispatch kernel root request) (fun _ => Over) (fun _ => Over) Over s := by
  obtain ⟨record, hrecord, hterminal⟩ := h
  have hkeep {t : Node} (ht : t.record = some record) : Over t := ⟨record, ht, hterminal⟩
  have hs : Over s := hkeep hrecord
  have hnot : ¬(record.state = .running ∨ record.state = .interrupted) := by
    obtain hstate | hstate := hterminal <;> simp [hstate]
  have hprepare : prepare kernel record = pure record := if_pos (.inr (.inl hterminal))
  have hload {p : Record → Action Record}
      (hp : wp (p record) (fun _ => Over) (fun _ => Over) Over s) :
      wp (do
        let s ← disk
        let record ← demand s.record
          (.error "transfer_missing" "The transfer receipt is unavailable.")
        refuseIf (record.rootId ≠ root.id)
          (.error "transfer_missing" "The transfer receipt is unavailable.")
        p record) (fun _ => Over) (fun _ => Over) Over s := by
    simp only [wp_bind, wp_disk, wp_demand, wp_refuseIf, hrecord]
    refine ⟨fun _ => hs, fun found hfound => ⟨fun _ => hs, fun _ => ?_⟩⟩
    obtain rfl := Option.some.inj hfound
    exact hp
  have hverify : wp (verifyPrefix kernel record) (fun _ => Over) (fun _ => Over) Over s := by
    simp only [verifyPrefix, wp_bind]
    refine wp_dataFile hs fun _ _ _ _ => wp_bind.mpr (wp_journal hs fun _ _ _ _ => ?_)
    simp only [wp_bind, wp_check, wp_ite, wp_perform, wp_pure]
    exact ⟨fun _ _ => ⟨fun _ => ⟨hkeep hrecord, hkeep hrecord, hkeep hrecord⟩, fun _ => hs⟩,
      fun _ _ => hs⟩
  cases request with
  | start spec preparing limits =>
    simp only [dispatch, start, wp_bind, wp_refuseIf, wp_disk, hrecord, hprepare, wp_ite, wp_pure]
    exact ⟨fun _ => hs, fun _ => ⟨fun _ => hs, fun _ => ⟨fun _ => hs, fun _ => hs⟩⟩⟩
  | write offset data sha256 =>
    refine hload ?_
    simp only [writeChunk, wp_bind, wp_refuseIf]
    exact ⟨fun _ => hs, fun _ => ⟨fun _ => hs, fun _ => ⟨fun _ => hs, fun _ => ⟨fun _ => hs,
      fun hrunning => absurd (.inl (not_not.mp hrunning)) hnot⟩⟩⟩⟩
  | resume =>
    refine hload ?_
    simp only [resume, hprepare, wp_bind, wp_pure, wp_refuseIf]
    exact ⟨fun _ => hs, fun hready => absurd (not_not.mp hready) hnot⟩
  | commit digest =>
    refine hload ?_
    show wp (commit kernel record digest) _ _ _ s
    rw [commit, wp_ite, wp_pure]
    refine ⟨fun _ => hs, fun hother => ?_⟩
    rw [wp_bind, wp_refuseIf]
    refine ⟨fun _ => hs, fun hready => ?_⟩
    obtain hstate | hstate := hterminal
    · exact absurd hstate hother
    · simp [hstate] at hready
  | cancel discardPartial =>
    refine hload ?_
    simp only [cancel, wp_bind, wp_refuseIf, wp_ite, wp_pure]
    refine ⟨fun _ => hs, fun _ => ⟨fun hsucceeded => ?_, fun hother => ⟨fun _ => hs, fun hnone => ?_⟩⟩⟩
    · have hclean : wp (cleanup record) (fun _ => Over) (fun _ => Over) Over s := by
        refine wp_cleanup_record hs ?_ fun _ _ => ⟨_, rfl, .inl hsucceeded⟩
        rintro t u hsame - ⟨r, hr, hstate⟩
        exact ⟨r, hsame.trans hr, hstate⟩
      refine wp_mono hclean (fun next t ht => ?_) (fun _ _ h => h) fun _ h => h
      rw [wp_ite, wp_pure]
      refine ⟨fun _ => ?_, fun _ => ht⟩
      simp only [deleteDownload, wp_bind, wp_disk, wp_demand, wp_refuseIf, wp_perform, wp_save,
        wp_pure]
      -- The deleted download is recorded as cancelled.
      exact ⟨fun _ => ht, fun _ _ => ⟨fun _ => ht, fun _ => ⟨ht, ⟨_, rfl, .inr rfl⟩, _, rfl,
        .inr rfl⟩⟩⟩
    · obtain hstate | hstate := hterminal
      · exact absurd hstate hother
      · exact absurd hstate hnone
  | status => exact hload (wp_pure.mpr hs)
  | verify => exact hload (wp_seq hverify fun _ t ht => wp_pure.mpr ht)

/-- A commit of a transfer that accepts chunks is not stopped between writing its record and letting
the files change places. -/
def Careful (s : Node) (action : Step) : Prop :=
  ∀ digest, action.request = .commit digest → Running s → action.stop ≠ some 3

omit [Hash (Root × Spec)] in
/-- A weaker reason to be stuck. -/
theorem Sound.weaken {stuck' : Prop} (h : Sound old requested stuck s) (himp : stuck → stuck') :
    Sound old requested stuck' s := by
  cases h with
  | absent hrecord hdestination hstaging haccepted =>
    exact .absent hrecord hdestination hstaging haccepted
  | kept record h => exact .kept record (h.mono himp)

/-- A step keeps the state sound, or the transfer is over. A commit may only be stopped before the
files changed places when the state may be so afterwards. -/
theorem sound_or_over_step {action : Step} (h : Sound old (fun _ => True) stuck s ∨ Over s)
    (hcareful : stuck ∨ Careful s action) :
    Sound old (fun _ => True) stuck (step s action) ∨ Over (step s action) := by
  obtain ⟨kernel, root, request, stop⟩ := action
  unfold Node.step
  split_ifs with hfresh
  case neg => exact h
  by_cases hover : Over s
  · exact .inr (cut_of_wp (hover.wp_dispatch request) hover stop)
  have hsound := h.resolve_right hover
  have hretains : Retains s ⟨kernel, root, request, stop⟩ :=
    fun _ record hrecord hdone => hover ⟨record, hrecord, .inl hdone.1⟩
  -- Only the commit of a complete and verified transfer writes the record of a commit.
  by_cases hripe : ¬stuck ∧ ∃ record d, request = .commit (some d) ∧ s.record = some record ∧
      record.state = .running ∧ record.offset = record.size ∧ Verified s record d
  case neg =>
    refine .inl (cut_of_wp (wp_dispatch hsound hfresh hretains (fun _ _ => trivial) ?_) hsound stop)
    intro record d hrequest hrecord hstate hcomplete hverified
    by_contra hstuck
    exact hripe ⟨hstuck, record, d, hrequest, hrecord, hstate, hcomplete, hverified⟩
  obtain ⟨hstuck, record, d, rfl, hrecord, hstate, hcomplete, file, chunks, hstaging, hread⟩ := hripe
  obtain ⟨found, hfilling⟩ := (hsound.kept_of_record hrecord).filling hstate
  obtain rfl : found = file :=
    Option.some.inj (hfilling.data.symm.trans (data_of_staging hstaging))
  have hripe : Ripe old s record d found chunks := ⟨hfilling, hstaging, hread, hcomplete⟩
  obtain ⟨other, hother, -, hcommit⟩ | ⟨error, herror⟩ :=
    dispatch_commit_cases s kernel root (some d)
  · obtain rfl : record = other := Option.some.inj (hrecord.symm.trans hother)
    rw [cut_congr hcommit]
    have hcut : _ ∨ _ ∨ stop ≠ some 3 ∧ Sound old (fun _ => True) False
        (cut (commit kernel record (some d)) s stop) ∧ _ := hripe.cut_commit trivial stop
    obtain ⟨-, _, _, hnext⟩ | ⟨hthree, -⟩ | ⟨-, hnext, -⟩ := hcut
    · exact .inl (.kept record hnext.filling.kept)
    · exact absurd hthree ((hcareful.resolve_left hstuck) _ rfl ⟨record, hrecord, hstate⟩)
    · exact .inl (hnext.weaken False.elim)
  · rw [cut_of_read herror]
    exact .inl hsound

omit [Hashing] [Hash (Root × Spec)] in
theorem not_succeeds_of_wp {p : Action Record}
    (h : wp p (fun _ _ => False) (fun _ _ => True) (fun _ => True) s) : ¬Succeeds p s := by
  rintro ⟨reply, hreply, -⟩
  exact result_of_wp h hreply

/-- A commit that was stopped between its record and the change of places cannot be finished. -/
theorem Ripe.not_succeeds_recorded {hashed : Digest} {file : File} {chunks : List Digest}
    (h : Ripe old s record hashed file chunks) (hroot : record.rootId = root.id)
    (again : Kernel) :
    ¬Succeeds (dispatch again root (.commit digest))
      (recorded kernel record file chunks hashed s) := by
  have hcommitted : Committed old (fun _ => True) s.accepted (committing kernel record file hashed)
      (shortened kernel record file) := h.committed trivial
  have hstaging : (recorded kernel record file chunks hashed s).staging = _ :=
    staging_afterChunks h.staging
  have hdispatch : dispatch again root (.commit digest)
      (recorded kernel record file chunks hashed s) =
        commit again (committing kernel record file hashed) digest _ := dispatch_commit rfl hroot
  rw [Succeeds, hdispatch, commit_eq_conclude rfl hcommitted.complete hstaging]
  exact not_succeeds_of_wp (hcommitted.wp_conclude h.filling.destination)

omit [Hash (Root × Spec)] in
/-- A commit that had begun before and can be finished is stopped where it can be finished. -/
theorem Kept.cut_begun (h : Kept old requested True s record) (hrunning : record.state ≠ .running)
    (hsucceeds : Succeeds (commit kernel record digest) s) (stop : Option ℕ) :
    Sound old requested False (cut (commit kernel record digest) s stop) ∧
      Finishing record.rootId (cut (commit kernel record digest) s stop) := by
  by_cases hsucceeded : record.state = .succeeded
  · obtain ⟨file, hpublished⟩ := h.published hsucceeded
    have hcut : cut (commit kernel record digest) s stop = s := by
      rw [commit, if_pos hsucceeded]
      cases stop <;> simp [cut, pure, returns]
    rw [hcut]
    exact ⟨.kept record hpublished.kept, record, h.record_eq, rfl, .inr hsucceeded⟩
  by_cases hstate : record.state = .committing
  case neg =>
    -- In every other state a commit is refused.
    refine absurd hsucceeds (not_succeeds_of_wp ?_)
    rw [commit, if_neg hsucceeded, wp_bind, wp_refuseIf]
    exact ⟨fun _ => trivial, fun hready => absurd (.inr (not_or.mpr ⟨hrunning, hstate⟩)) hready⟩
  obtain ⟨folder, hfolder⟩ := Option.ne_none_iff_exists'.mp (h.staged hstate)
  cases h.phase with
  | unprepared hother => rw [hstate] at hother; simp at hother
  | receiving hother => rw [hstate] at hother; simp at hother
  | recorded _ _ hdestination file _ hcommitted =>
    rw [Succeeds, commit_eq_conclude hstate hcommitted.complete hfolder] at hsucceeds
    exact absurd hsucceeds (not_succeeds_of_wp (hcommitted.wp_conclude hdestination))
  | renamed _ file hdestination hcommitted hdisplaced hmoved =>
    have hkept : Kept old requested False s record :=
      ⟨h.record_eq, h.expected, h.length, h.staged,
        .renamed hstate file hdestination hcommitted hdisplaced hmoved⟩
    rw [cut_congr (commit_eq_conclude hstate hcommitted.complete hfolder digest)]
    exact cut_of_wp (wp_and (hkept.wp_conclude hstate) (wp_conclude_finishing h.record_eq hstate))
      ⟨.kept record hkept, record, h.record_eq, rfl, .inl hstate⟩ stop
  | succeeded hother => exact absurd hother hsucceeded
  | discarded hother => rw [hstate] at hother; simp at hother

/-- Another commit after one that was stopped. -/
theorem Kept.succeeds_again {d : Option Digest} (h : Kept old (fun _ => True) True s record)
    (hroot : record.rootId = root.id) (hsucceeds : Succeeds (commit kernel record d) s)
    (again : Kernel) (stop : Option ℕ) :
    Succeeds (dispatch again root (.commit d)) (cut (commit kernel record d) s stop) ↔
      ¬(record.state = .running ∧ stop = some 3) := by
  by_cases hrunning : record.state = .running
  · obtain ⟨hashed, file, chunks, rfl, hripe⟩ := h.ripe hrunning hsucceeds
    have hcut : _ ∨ _ ∨ stop ≠ some 3 ∧ Sound old (fun _ => True) False
        (cut (commit kernel record (some hashed)) s stop) ∧ _ := hripe.cut_commit trivial stop
    obtain ⟨hthree, _, _, hnext⟩ | ⟨rfl, heq⟩ | ⟨hthree, hsound, hfinishing⟩ := hcut
    · rw [Succeeds, dispatch_commit hnext.filling.record_eq hroot]
      exact iff_of_true (hnext.succeeds again) fun hbad => hthree hbad.2
    · rw [heq]
      refine iff_of_false (hripe.not_succeeds_recorded hroot again) ?_
      exact fun hnot => hnot ⟨hrunning, rfl⟩
    · refine iff_of_true (hsound.succeeds (hroot ▸ hfinishing)) ?_
      exact fun hbad => hthree hbad.2
  · refine iff_of_true ?_ fun hbad => hrunning hbad.1
    obtain ⟨hsound, hfinishing⟩ := h.cut_begun hrunning hsucceeds stop
    exact hsound.succeeds (hroot ▸ hfinishing)

/-- Where a commit is stopped, and whether another one with the same digest succeeds then: it does,
unless the first one was stopped between writing its record and letting the files change places. In
a run without such stops, every commit that has begun can be finished. -/
theorem commit_recoverable (old : Option File) (actions : List Step) :
    let s := run step (initial old) actions
    (∀ kernel again root digest stop, Succeeds (dispatch kernel root (.commit digest)) s →
      (Succeeds (dispatch again root (.commit digest))
          (cut (dispatch kernel root (.commit digest)) s stop) ↔
        ¬(Running s ∧ stop = some 3))) ∧
    (Along step Careful (initial old) actions → ∀ record, s.record = some record →
      record.state = .committing → ∀ kernel root digest, root.id = record.rootId →
        Succeeds (dispatch kernel root (.commit digest)) s) := by
  intro s
  constructor
  · intro kernel again root digest stop hsucceeds
    obtain ⟨record, hrecord, hroot, hcommit⟩ | ⟨error, herror⟩ :=
      dispatch_commit_cases s kernel root digest
    case inr =>
      obtain ⟨reply, hreply, -⟩ := hsucceeds
      rw [herror] at hreply
      cases hreply
    rw [Succeeds, hcommit] at hsucceeds
    have hrunning : Running s ↔ record.state = .running := by
      simp [Running, hrecord]
    rw [cut_congr hcommit, hrunning]
    have hinvariant : Sound old (fun _ => True) True s ∨ Over s :=
      run_invariant (I := fun s => Sound old (fun _ => True) True s ∨ Over s)
        (fun s action h => sound_or_over_step h (.inl trivial)) (.inl (.absent rfl rfl rfl rfl))
        actions
    obtain hsound | ⟨other, hother, hterminal⟩ := hinvariant
    · exact (hsound.kept_of_record hrecord).succeeds_again hroot hsucceeds again stop
    · -- A transfer that is over and whose commit succeeds has succeeded before.
      obtain rfl : record = other := Option.some.inj (hrecord.symm.trans hother)
      obtain hstate | hstate := hterminal
      · have hsame (kernel : Kernel) : commit kernel record digest s = ⟨[], .ok record⟩ := by
          rw [commit, if_pos hstate]
          rfl
        have hcut : cut (commit kernel record digest) s stop = s := by
          cases stop <;> simp [cut, hsame]
        rw [hcut, Succeeds, dispatch_commit hrecord hroot, hsame]
        exact iff_of_true ⟨record, rfl, hstate⟩ fun hbad => by simp [hstate] at hbad
      · obtain ⟨reply, hreply, -⟩ := hsucceeds
        simp [commit, hstate, refuseIf, check, raiseIf, bind, followedBy] at hreply
  · intro hcareful record hrecord hstate kernel root digest hroot
    have hinvariant : Sound old (fun _ => True) False s ∨ Over s :=
      hcareful.run_invariant (I := fun s => Sound old (fun _ => True) False s ∨ Over s)
        (fun s action h hcareful => sound_or_over_step h (.inr hcareful))
        (.inl (.absent rfl rfl rfl rfl))
    obtain hsound | ⟨other, hother, hterminal⟩ := hinvariant
    · exact hsound.succeeds ⟨record, hrecord, hroot.symm, .inl hstate⟩
    · obtain rfl : record = other := Option.some.inj (hrecord.symm.trans hother)
      obtain hother | hother := hterminal <;> rw [hstate] at hother <;> cases hother

end Runs

namespace Example

attribute [local instance] hashing signatures

/-- The start and the only chunk of the replacement, and a commit that is stopped after three durable
steps. -/
def stopped : List Step :=
  (replacement directory).take 2 ++
    [{ kernel := { kernel with inode := 3 }, root := directory
       request := .commit (some (Hashing.sha256 [7])), stop := some 3 }]

/-- The commit could not be finished, and the transfer cannot be cancelled. -/
theorem not_commit_recoverable_stopped :
    let s := run step (initial (some previous)) stopped
    s.record.map Record.state = some .committing ∧
      (dispatch kernel directory (.commit (some (Hashing.sha256 [7]))) s).result =
        .error (.error "outcome_unknown" "The committed destination requires manual recovery.") ∧
      (dispatch kernel directory (.cancel true) s).result =
        .error (.error "outcome_unknown" "Reconcile the commit before cleanup.") := by
  decide +kernel

/-- A commit that is stopped right after the files have changed places is finished by another one. -/
theorem commit_recoverable_renamed :
    let s := run step (initial (some previous)) ((replacement directory).take 2)
    let request := Request.commit (some (Hashing.sha256 [7]))
    Succeeds (dispatch kernel directory request) s ∧
      Succeeds (dispatch kernel directory request)
        (cut (dispatch kernel directory request) s (some 4)) := by
  intro s request
  have hsucceeds : Succeeds (dispatch kernel directory request) s := by
    have hstate : (dispatch kernel directory request s).result.map Record.state =
        .ok .succeeded := by
      decide +kernel
    cases hresult : (dispatch kernel directory request s).result with
    | error error =>
      rw [hresult] at hstate
      cases hstate
    | ok reply =>
      rw [hresult] at hstate
      exact ⟨reply, hresult, Except.ok.inj hstate⟩
  refine ⟨hsucceeds, ?_⟩
  refine ((commit_recoverable (some previous) ((replacement directory).take 2)).1 kernel kernel
    directory (some (Hashing.sha256 [7])) (some 4) hsucceeds).mpr ?_
  exact fun hbad => by simp at hbad

end Example

end Ficc.Transfers.Node
