import Ficc.Transfers.Recovery

/-!
# What a request leaves as it is

A request other than a chunk leaves the accepted bytes as they are. A chunk is appended to them when it
goes right behind them, and it agrees with them when it lies before their end.

## Main results

* `wp_dispatch_held`: every request but a chunk.
* `wp_dispatch_write`: a chunk.
-/

namespace Ficc.Transfers.Node

open Execution (Identity Digest Hash)
open Durable

/-- The accepted bytes, and what is known of the record. -/
structure Held (accepted : Bytes) (size : ℕ) (s : Node) : Prop where
  accepted_eq : s.accepted = accepted
  record : ∀ record, s.record = some record → record.size = size ∧ record.downloads = false

section Requests

variable {accepted : Bytes} {size : ℕ} {s t : Node} {record : Record}
  {kernel : Kernel} {root : Root}

theorem Held.congr (h : Held accepted size s) (haccepted : t.accepted = s.accepted)
    (hrecord : t.record = s.record) : Held accepted size t :=
  ⟨haccepted.trans h.accepted_eq, fun record hstored => h.record record (hrecord.symm.trans hstored)⟩

theorem Held.with_data (h : Held accepted size s) (file : Option File) :
    Held accepted size (setData file s) := h.congr rfl rfl

theorem Held.with_chunks (h : Held accepted size s) (chunks : Option (List Digest)) :
    Held accepted size (setChunks chunks s) := h.congr rfl rfl

/-- Another record of the same transfer is stored. -/
theorem Held.save (h : Held accepted size s) (next : Record) (hsize : next.size = size)
    (hdownloads : next.downloads = false) : Held accepted size { s with record := some next } := by
  refine ⟨h.accepted_eq, fun stored hstored => ?_⟩
  obtain rfl := Option.some.inj hstored
  exact ⟨hsize, hdownloads⟩

/-- The program keeps what is held, wherever it stops. -/
abbrev Keeps {α : Type} (accepted : Bytes) (size : ℕ) (p : Action α) (s : Node) : Prop :=
  wp p (fun _ => Held accepted size) (fun _ => Held accepted size) (Held accepted size) s

theorem Held.keeps_prepare (h : Held accepted size s) (hsize : record.size = size)
    (hdownloads : record.downloads = false) :
    wp (prepare kernel record)
      (fun next t => Held accepted size t ∧ next.size = size ∧ next.downloads = false)
      (fun _ => Held accepted size) (Held accepted size) s := by
  have hroom {t : Node} (ht : Held accepted size t) (required : ℕ) :
      Keeps accepted size (requireRoom kernel record required) t := by
    simp only [requireRoom, wp_refuseIf]
    exact ⟨fun _ => ht, fun _ => ht⟩
  have hdata {t : Node} (ht : Held accepted size t) :
      Keeps accepted size (prepareData kernel record) t := by
    simp only [Keeps, prepareData, wp_bind, wp_stage]
    refine ⟨fun _ => ht, fun folder _ => ?_⟩
    cases folder.data with
    | none =>
      simp only [wp_bind, wp_perform]
      exact ⟨ht.with_data _, hroom (ht.with_data _) _⟩
    | some file =>
      simp only [wp_bind, wp_refuseIf]
      exact ⟨fun _ => ht, fun _ => hroom ht _⟩
  have hchunks {t : Node} (ht : Held accepted size t) :
      Keeps accepted size (prepareChunks kernel record) t := by
    simp only [Keeps, prepareChunks, wp_bind, wp_stage]
    refine ⟨fun _ => ht, fun folder _ => ?_⟩
    cases folder.chunks with
    | none =>
      simp only [wp_bind, wp_perform]
      exact ⟨ht.with_chunks _, hroom (ht.with_chunks _) _⟩
    | some chunks =>
      simp only [wp_bind, wp_refuseIf]
      exact ⟨fun _ => ht, fun _ => hroom ht _⟩
  rw [prepare, wp_ite, wp_pure]
  refine ⟨fun _ => ⟨h, hsize, hdownloads⟩, fun _ => ?_⟩
  have hfolder : Held accepted size
      { s with staging := s.staging.or (some ⟨none, none⟩) } := h.congr rfl rfl
  rw [wp_bind, wp_perform]
  refine ⟨hfolder, wp_seq (hdata hfolder) fun _ t ht => wp_seq (hchunks ht) fun _ u hu => ?_⟩
  rw [wp_bind, wp_save, wp_pure]
  have hnext := hu.save { record with
    state := .running, prepared := true
    reservedBytes := record.size + journalBytes record.size } hsize hdownloads
  exact ⟨hnext, hnext, hsize, hdownloads⟩

variable [Hashing]

/-- A verification leaves the accepted bytes. -/
theorem Held.keeps_verifyPrefix (h : Held accepted size s) :
    Keeps accepted size (verifyPrefix kernel record) s := by
  simp only [Keeps, verifyPrefix, wp_bind]
  refine wp_dataFile h fun _ _ _ _ => wp_bind.mpr (wp_journal h fun _ _ _ _ => ?_)
  simp only [wp_bind, wp_check, wp_ite, wp_perform, wp_pure]
  exact ⟨fun _ _ => ⟨fun _ => ⟨h.with_data _, (h.with_data _).with_chunks _,
    (h.with_data _).with_chunks _⟩, fun _ => h⟩, fun _ _ => h⟩

omit [Hashing] in
theorem Held.keeps_requireDestination (h : Held accepted size s) :
    Keeps accepted size (requireDestination record) s := by
  simp only [Keeps, requireDestination, wp_bind, wp_disk]
  cases record.expected with
  | none =>
    simp only [wp_refuseIf]
    exact ⟨fun _ => h, fun _ => h⟩
  | some expected =>
    simp only [wp_bind, wp_demand, wp_refuseIf]
    exact ⟨fun _ => h, fun _ _ => ⟨fun _ => h, fun _ => h⟩⟩

omit [Hashing] in
theorem Held.keeps_rename (h : Held accepted size s) (exchange : Bool) :
    Keeps accepted size (rename kernel exchange) s := by
  simp only [Keeps, rename, wp_bind, wp_disk]
  refine wp_dataFile h fun folder file _ _ => ?_
  cases exchange with
  | true =>
    cases s.destination with
    | none => exact wp_check.mpr ⟨by rintro _ ⟨⟩, fun _ _ => h⟩
    | some old =>
      simp only [wp_perform]
      exact ⟨h.congr rfl rfl, h.congr rfl rfl⟩
  | false =>
    cases s.destination with
    | none =>
      simp only [wp_perform]
      exact ⟨h.congr rfl rfl, h.congr rfl rfl⟩
    | some old => exact wp_check.mpr ⟨by rintro _ ⟨⟩, fun _ _ => h⟩

/-- So does a publication. -/
theorem Held.keeps_publish (h : Held accepted size s) (hsize : record.size = size)
    (hdownloads : record.downloads = false) {digest : Option Digest} :
    wp (publish kernel digest record) (fun next t => Held accepted size t ∧
        next.size = size ∧ next.downloads = false)
      (fun _ => Held accepted size) (Held accepted size) s := by
  rw [publish]
  refine wp_seq h.keeps_verifyPrefix fun hashed t ht => ?_
  simp only [wp_bind, wp_refuseIf]
  refine ⟨fun _ => ht, fun _ => wp_dataFile ht fun _ file _ _ => ?_⟩
  refine wp_seq ht.keeps_requireDestination fun _ u hu => ?_
  rw [wp_bind, wp_save]
  have hnext := hu.save { record with
    committedIdentity := some file.identity, state := .committing, sha256 := some hashed }
    hsize hdownloads
  refine ⟨hnext, wp_seq (hnext.keeps_rename _) fun _ v hv => ?_⟩
  exact wp_pure.mpr ⟨hv, hsize, hdownloads⟩

omit [Hashing] in
theorem Held.keeps_cleanup (h : Held accepted size s) (hsize : record.size = size)
    (hdownloads : record.downloads = false) :
    wp (cleanup record) (fun next t => Held accepted size t ∧ next.downloads = false)
      (fun _ => Held accepted size) (Held accepted size) s := by
  rw [cleanup, wp_ite, wp_pure]
  refine ⟨fun _ => ⟨h, hdownloads⟩, fun _ => wp_seq (wp_removeStage_record h fun t u hrecord
    haccepted ht => ht.congr haccepted hrecord) fun _ t ht => ?_⟩
  rw [wp_bind, wp_save, wp_pure]
  have hnext := ht.save { record with cleanupPending := false } hsize hdownloads
  exact ⟨hnext, hnext, hdownloads⟩

theorem Held.keeps_conclude (h : Held accepted size s) (hsize : record.size = size)
    (hdownloads : record.downloads = false) :
    Keeps accepted size (conclude record) s := by
  simp only [Keeps, conclude, confirm, wp_bind, wp_disk, wp_demand, wp_refuseIf]
  refine ⟨fun _ => h, fun published _ => ⟨fun _ => h, fun _ => ?_⟩⟩
  refine wp_mono wp_requireDisplaced_eq (fun _ t ht => ?_) (fun _ t ht => ht ▸ h) fun t ht => ht ▸ h
  rw [wp_bind, wp_save, wp_pure, wp_recovering]
  have hnext := (show Held accepted size t from ht ▸ h).save { record with
    publishedIdentity := some published.identity, state := .succeeded, cleanupPending := true }
    hsize hdownloads
  exact ⟨hnext, wp_mono (hnext.keeps_cleanup hsize hdownloads)
    (fun _ _ h => h.1) (fun _ _ h => h) fun _ h => h⟩

theorem Held.keeps_commit (h : Held accepted size s) (hrecord : s.record = some record)
    {digest : Option Digest} : Keeps accepted size (commit kernel record digest) s := by
  obtain ⟨hsize, hdownloads⟩ := h.record record hrecord
  rw [Keeps, commit, wp_ite, wp_pure]
  refine ⟨fun _ => h, fun _ => ?_⟩
  simp only [wp_bind, wp_refuseIf, wp_stage]
  refine ⟨fun _ => h, fun _ => ⟨fun _ => h, fun _ _ => ?_⟩⟩
  split_ifs
  · refine wp_bind.mpr (wp_mono (h.keeps_publish hsize hdownloads) ?_ (fun _ _ h => h) fun _ h => h)
    rintro next t ⟨ht, hnextSize, hnextDownloads⟩
    exact ht.keeps_conclude hnextSize hnextDownloads
  · rw [wp_bind, wp_pure]
    exact h.keeps_conclude hsize hdownloads

/-- So does a resumption. -/
theorem Held.keeps_resume (h : Held accepted size s) (hrecord : s.record = some record) :
    Keeps accepted size (resume kernel record) s := by
  obtain ⟨hsize, hdownloads⟩ := h.record record hrecord
  refine wp_seq (h.keeps_prepare hsize hdownloads) ?_
  rintro next t ⟨ht, hnextSize, hnextDownloads⟩
  rw [wp_bind, wp_refuseIf]
  refine ⟨fun _ => ht, fun _ => wp_seq ht.keeps_verifyPrefix fun hashed u hu => ?_⟩
  rw [wp_bind, wp_save, wp_pure]
  have hlast := hu.save { next with prefixSha256 := some hashed, state := .running }
    hnextSize hnextDownloads
  exact ⟨hlast, hlast⟩

omit [Hashing] in
theorem Held.keeps_discard (h : Held accepted size s) (hsize : record.size = size)
    (hdownloads : record.downloads = false) :
    Keeps accepted size (discard record) s := by
  have hsave {t : Node} (ht : Held accepted size t) (state : State) :
      Held accepted size { t with record := some { record with state } } :=
    ht.save _ hsize hdownloads
  have hfirst := hsave h .discarding
  have hremove : Keeps accepted size removePartial
      { s with record := some { record with state := .discarding } } := by
    simp only [Keeps, removePartial, wp_bind, wp_disk, wp_ite, wp_pure, wp_perform]
    refine ⟨fun _ => hfirst, fun _ => ⟨hfirst.with_data _, (hfirst.with_data _).with_chunks _, ?_⟩⟩
    have hgone := ((hfirst.with_data none).with_chunks none).congr (t := { setChunks none (setData none
      { s with record := some { record with state := .discarding } }) with staging := none }) rfl rfl
    exact ⟨hgone, hgone⟩
  rw [Keeps, discard, wp_bind, wp_save]
  refine ⟨hfirst, wp_seq hremove fun _ t ht => ?_⟩
  rw [wp_bind, wp_save, wp_pure]
  have hlast := hsave ht .cancelled
  exact ⟨hlast, hlast⟩

omit [Hashing] in
/-- So does a cancellation. -/
theorem Held.keeps_cancel (h : Held accepted size s) (hrecord : s.record = some record)
    (discardPartial : Bool) : Keeps accepted size (cancel record discardPartial) s := by
  obtain ⟨hsize, hdownloads⟩ := h.record record hrecord
  simp only [Keeps, cancel, wp_bind, wp_refuseIf, wp_ite, wp_pure]
  refine ⟨fun _ => h, fun _ => ⟨fun _ => ?_, fun _ => ⟨fun _ => h, fun _ =>
    ⟨fun _ => h.keeps_discard hsize hdownloads, fun _ => ⟨fun _ => h, fun _ => ?_⟩⟩⟩⟩⟩
  · refine wp_mono (h.keeps_cleanup hsize hdownloads) ?_ (fun _ _ h => h) fun _ h => h
    rintro next t ⟨ht, hkept⟩
    rw [wp_ite, wp_pure]
    refine ⟨fun hdelete => ?_, fun _ => ht⟩
    rw [hkept] at hdelete
    exact absurd hdelete.2 Bool.false_ne_true
  · rw [wp_save, wp_pure]
    have hnext := h.save { record with state := .interrupted } hsize hdownloads
    exact ⟨hnext, hnext⟩

omit [Hashing] in
theorem Held.keeps_start [Hash (Root × Spec)] (h : Held accepted size s) {spec : Spec}
    (hspec : spec.size = size) (hroot : root.downloads = false) (preparing : Bool)
    (limits : Limits) :
    Keeps accepted size (start kernel root spec preparing limits) s := by
  have hprepare {t : Node} {next : Record} (ht : Held accepted size t)
      (hsize : next.size = size) (hdownloads : next.downloads = false) :
      Keeps accepted size (if preparing then prepare kernel next else pure next) t := by
    rw [Keeps, wp_ite, wp_pure]
    exact ⟨fun _ => wp_mono (ht.keeps_prepare hsize hdownloads) (fun _ _ h => h.1)
      (fun _ _ h => h) fun _ h => h, fun _ => ht⟩
  simp only [Keeps, start, wp_bind, wp_refuseIf, wp_disk]
  refine ⟨fun _ => h, fun _ => ?_⟩
  cases hrecord : s.record with
  | some previous =>
    obtain ⟨hsize, hdownloads⟩ := h.record previous hrecord
    simp only [wp_bind, wp_refuseIf]
    exact ⟨fun _ => h, fun _ => hprepare h hsize hdownloads⟩
  | none =>
    simp only [wp_bind, wp_refuseIf, wp_save]
    refine ⟨fun _ => h, fun _ => ⟨fun _ => h, fun _ => ⟨fun _ => h, fun _ => ⟨fun _ => h, fun _ =>
      ⟨fun _ => h, fun _ => ?_⟩⟩⟩⟩⟩
    have hnew := h.save {
      digest := Hash.digest (root, spec), rootId := root.id, downloads := root.downloads
      cleanupPending := false, prepared := false
      expected := s.destination.map File.identity, size := spec.size
      offset := 0, sha256 := none, prefixSha256 := none, sourceManifest := spec.sourceManifest
      freeBytes := limits.freeBytes, state := .preparing, committedIdentity := none
      publishedIdentity := none, reservedBytes := 0 } hspec hroot
    exact ⟨hnew, hprepare hnew hspec hroot⟩

end Requests

section Chunks

/-- The accepted bytes end with a whole chunk, or with the file. -/
def Whole (accepted : Bytes) (size : ℕ) : Prop :=
  accepted.length ≤ size ∧ (accepted.length % CHUNK = 0 ∨ accepted.length = size)

/-- The bytes are a chunk of a file of the size. -/
structure Chunk (size offset : ℕ) (bytes : Bytes) : Prop where
  aligned : offset % CHUNK = 0
  length : bytes.length = min CHUNK (size - offset)
  nonempty : bytes ≠ []

variable {accepted : Bytes} {size offset : ℕ} {bytes : Bytes}

/-- A chunk lies within the file. -/
theorem Chunk.lt_size (h : Chunk size offset bytes) : offset < size := by
  have hpos := List.length_pos_of_ne_nil h.nonempty
  have hlength := h.length
  omega

/-- A chunk that begins before the end of the accepted bytes ends there at the latest. -/
theorem Chunk.end_le (h : Chunk size offset bytes) (hwhole : Whole accepted size)
    (hoffset : offset < accepted.length) : offset + bytes.length ≤ accepted.length := by
  have haligned := h.aligned
  have hlength := h.length
  obtain ⟨-, hwhole | hwhole⟩ := hwhole
  · simp only [CHUNK] at haligned hlength hwhole
    omega
  · omega

/-- The accepted bytes with the next chunk. -/
theorem Chunk.whole_append (h : Chunk size accepted.length bytes) :
    Whole (accepted ++ bytes) size := by
  have haligned := h.aligned
  have hlength := h.length
  have hlt := h.lt_size
  rw [Whole, List.length_append]
  simp only [CHUNK] at haligned hlength ⊢
  omega

/-- A chunk is what is read at its offset from bytes that have it there. -/
theorem Chunk.pread_eq (h : Chunk size offset bytes) (hle : accepted.length ≤ size)
    (heq : pread accepted bytes.length offset = bytes) : pread accepted CHUNK offset = bytes := by
  have hlength := h.length
  by_cases hfull : bytes.length = CHUNK
  · rwa [hfull] at heq
  · -- The last chunk ends with the file.
    have hend : (accepted.drop offset).length ≤ bytes.length := by
      rw [List.length_drop]
      omega
    have hall : (accepted.drop offset).length ≤ CHUNK := hend.trans (by omega)
    rw [pread, List.take_of_length_le hall]
    rwa [pread, List.take_of_length_le hend] at heq

/-- What is read within the accepted bytes of a file is read from them. -/
theorem pread_of_take {content : Bytes} {length : ℕ}
    (hstart : content.take accepted.length = accepted) (h : offset + length ≤ accepted.length) :
    pread accepted length offset = pread content length offset := by
  conv_lhs => rw [← hstart]
  rw [pread, pread, List.drop_take, List.take_take, Nat.min_eq_left (by omega)]

end Chunks

section Dispatch

variable {old : Option File} {requested : Digest → Prop} {stuck : Prop}
  {accepted : Bytes} {size : ℕ} {s : Node} {record : Record}
  {kernel : Kernel} {root : Root} {offset : ℕ} {bytes : Bytes}

variable [Hashing]

/-- What a chunk leaves behind when it is not refused. -/
def Taken (accepted : Bytes) (size offset : ℕ) (bytes : Bytes) (t : Node) : Prop :=
  Chunk size offset bytes ∧
    ((offset < accepted.length ∧ pread accepted bytes.length offset = bytes ∧
        Held accepted size t) ∨
      (offset = accepted.length ∧ Held (accepted ++ bytes) size t))

/-- What a chunk leads through. -/
def Taking (accepted : Bytes) (size offset : ℕ) (bytes : Bytes) (t : Node) : Prop :=
  Held accepted size t ∨
    (Chunk size offset bytes ∧ offset = accepted.length ∧ Held (accepted ++ bytes) size t)

theorem Kept.wp_writeChunk_held (hkept : Kept old requested stuck s record)
    (h : Held accepted size s) (hwhole : Whole accepted size) (digest : Option Digest) :
    wp (writeChunk kernel record offset bytes digest)
      (fun _ => Taken accepted size offset bytes)
      (fun _ => Held accepted size) (Taking accepted size offset bytes) s := by
  obtain ⟨hsize, hdownloads⟩ := h.record record hkept.record_eq
  have hlength : accepted.length = record.offset := by rw [← hkept.length, h.accepted_eq]
  simp only [writeChunk, wp_bind, wp_refuseIf]
  refine ⟨fun _ => h, fun hoffset => ⟨fun _ => h, fun hbytes => ⟨fun _ => h, fun _ =>
    ⟨fun _ => h, fun hstate => ?_⟩⟩⟩⟩
  rw [not_or, not_not, not_lt] at hoffset
  rw [not_or, not_not, hsize] at hbytes
  have hchunk : Chunk size offset bytes := ⟨hoffset.1, hbytes.1, hbytes.2⟩
  obtain ⟨found, hfilling⟩ := hkept.filling (not_not.mp hstate)
  refine wp_dataFile h fun folder file hfolder hfile => ?_
  refine wp_bind.mpr (wp_journal h fun _ chunks _ _ => ?_)
  obtain rfl : found = file :=
    Option.some.inj (hfilling.data.symm.trans ((data_of_staging hfolder).trans hfile))
  rw [wp_ite]
  refine ⟨fun hbefore => ?_, fun hnext => ?_⟩
  · simp only [wp_bind, wp_refuseIf, wp_pure]
    refine ⟨fun _ => h, fun hsame => ⟨hchunk, .inl ⟨by omega, ?_, h⟩⟩⟩
    -- The partial file starts with the accepted bytes, and the chunk lies within them.
    rw [not_or, not_not] at hsame
    have hend := hchunk.end_le hwhole (by omega)
    have hstart : found.content.take accepted.length = accepted := by
      rw [hlength, hfilling.content, h.accepted_eq]
    rw [pread_of_take hstart hend]
    exact hsame.1
  · have hlast : offset = accepted.length := by omega
    simp only [wp_bind, wp_perform, wp_pure]
    have hheld {t : Node} (haccepted : t.accepted = s.accepted) (hrecord : t.record = s.record) :
        Taking accepted size offset bytes t := .inl (h.congr haccepted hrecord)
    have hend : Held (accepted ++ bytes) size
        { s with
          record := some { record with offset := record.offset + bytes.length }
          accepted := s.accepted ++ bytes } := by
      refine ⟨by rw [h.accepted_eq], fun stored hstored => ?_⟩
      obtain rfl := Option.some.inj hstored
      exact ⟨hsize, hdownloads⟩
    refine ⟨hheld rfl rfl, hheld rfl rfl, hheld rfl rfl, hheld rfl rfl, .inr ⟨hchunk, hlast, ?_⟩,
      hchunk, .inr ⟨hlast, ?_⟩⟩
    · exact hend.congr rfl rfl
    · exact hend.congr rfl rfl

variable [Hash (Root × Spec)]

omit [Hashing] [Hash (Root × Spec)] in
/-- The requests about the record that is there. -/
theorem wp_load {p : Record → Action Record} {ok : Record → Node → Prop}
    {raised : FileError → Node → Prop} {during : Node → Prop} (hraised : ∀ e, raised e s)
    (hp : ∀ record, s.record = some record → wp (p record) ok raised during s) :
    wp (do
      let s ← disk
      let record ← demand s.record
        (.error "transfer_missing" "The transfer receipt is unavailable.")
      refuseIf (record.rootId ≠ root.id)
        (.error "transfer_missing" "The transfer receipt is unavailable.")
      p record) ok raised during s := by
  simp only [wp_bind, wp_disk, wp_demand, wp_refuseIf]
  exact ⟨fun _ => hraised _, fun record hrecord => ⟨fun _ => hraised _, fun _ => hp record hrecord⟩⟩

/-- A request other than a chunk leaves the accepted bytes as they are. -/
theorem wp_dispatch_held (h : Held accepted size s) (hroot : root.downloads = false)
    (request : Request) (hstart : ∀ spec preparing limits, request = .start spec preparing limits →
      spec.size = size) (hwrite : ∀ offset bytes digest, request ≠ .write offset bytes digest) :
    Keeps accepted size (dispatch kernel root request) s := by
  have hheld : ∀ _ : FileError, Held accepted size s := fun _ => h
  cases request with
  | start spec preparing limits =>
    exact h.keeps_start (hstart spec preparing limits rfl) hroot preparing limits
  | write offset bytes digest => exact absurd rfl (hwrite offset bytes digest)
  | resume => exact wp_load hheld fun record hrecord => h.keeps_resume hrecord
  | commit digest => exact wp_load hheld fun record hrecord => h.keeps_commit hrecord
  | cancel discardPartial =>
    exact wp_load hheld fun record hrecord => h.keeps_cancel hrecord discardPartial
  | status => exact wp_load hheld fun record _ => wp_pure.mpr h
  | verify =>
    exact wp_load hheld fun record _ => wp_seq h.keeps_verifyPrefix fun _ t ht => wp_pure.mpr ht

/-- A chunk. -/
theorem wp_dispatch_write (hsound : Sound old requested stuck s) (h : Held accepted size s)
    (hwhole : Whole accepted size) (digest : Option Digest) :
    wp (dispatch kernel root (.write offset bytes digest))
      (fun _ => Taken accepted size offset bytes)
      (fun _ => Held accepted size) (Taking accepted size offset bytes) s :=
  wp_load (fun _ => h) fun _ hrecord =>
    (hsound.kept_of_record hrecord).wp_writeChunk_held h hwhole digest

/-- The record that a resumption returns is stored, and it accepts chunks. -/
theorem wp_dispatch_resume (hsound : Sound old requested stuck s) (hfresh : Fresh s kernel) :
    wp (dispatch kernel root .resume)
      (fun reply t => Returned old requested stuck reply t ∧ reply.state = .running)
      (fun _ => Sound old requested stuck) (Sound old requested stuck) s := by
  refine wp_load (fun _ => hsound) fun record hrecord => ?_
  have hresume := (hsound.kept_of_record hrecord).wp_resume hfresh
  have hstate : wp (resume kernel record) (fun reply _ => reply.state = .running) (fun _ _ => True)
      (fun _ => True) s := by
    refine wp_seq (wp_known trivial _) fun next t _ => ?_
    rw [wp_bind, wp_refuseIf]
    refine ⟨fun _ => trivial, fun _ => wp_seq (wp_known trivial _) fun hashed u _ => ?_⟩
    rw [wp_bind, wp_save, wp_pure]
    exact ⟨trivial, rfl⟩
  exact wp_mono (wp_and hresume hstate) (fun _ _ h => h) (fun _ _ h => h.1) fun _ h => h.1

end Dispatch

end Ficc.Transfers.Node
