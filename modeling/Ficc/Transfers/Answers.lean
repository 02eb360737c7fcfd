import Ficc.Transfers.Chunks
import Ficc.Transfers.Uploads

/-!
# Requests that are answered

What the node answers to the requests of an upload that goes well: a new file is received chunk by
chunk, its transfer is interrupted, and it is resumed. Each lemma says of one request that the program
returns and what it leaves, and then of one action of the controller what it makes of the answers.
-/

namespace Ficc.Transfers

open Execution (Identity Digest Hash)
open Durable

namespace Node

variable [Hashing] [Hash (Root × Spec)]

/-- A new file of which the given bytes have been received, with the digests of its chunks. -/
structure Receiving (root : Root) (spec : Spec) (ino : ℕ) (bytes : Bytes) (chunks : List Digest)
    (record : Record) (s : Node) : Prop where
  destination : s.destination = none
  staging : ∃ stamp, s.staging = some ⟨some ⟨ino, true, bytes, stamp⟩, some chunks⟩
  record_eq : s.record = some record
  accepted : s.accepted = bytes
  prepared : record.prepared = true
  digest : record.digest = Hash.digest (root, spec)
  rootId : record.rootId = root.id
  size : record.size = spec.size
  offset : record.offset = bytes.length
  reserved : record.reservedBytes ≠ 0

/-- The program returns. -/
abbrev Serves {α : Type} (p : Action α) (ok : α → Node → Prop) (s : Node) : Prop :=
  wp p ok (fun _ _ => False) (fun _ => True) s

/-- What a new transfer asks of the node. -/
structure Roomy (root : Root) (spec : Spec) (limits : Limits) (kernel : Kernel) : Prop where
  size : spec.size ≤ MAX_FILE
  nonempty : 0 < spec.size
  expected : spec.expected = none
  count : limits.count < 64
  quota : limits.retainedBytes = none
  records : limits.records < 4096
  writable : root.readOnly = false
  room : spec.size + journalBytes spec.size + limits.freeBytes ≤ kernel.available

variable {root : Root} {spec : Spec} {ino : ℕ} {bytes data : Bytes} {chunks : List Digest}
  {record : Record} {s : Node} {kernel : Kernel} {limits : Limits}

/-- The first request of a transfer. -/
theorem serves_start_new (h : Roomy root spec limits kernel) :
    Serves (dispatch kernel root (.start spec true limits))
      (fun _ t => ∃ record, Receiving root spec kernel.inode [] [] record t ∧
        record.state = .running) ⟨none, none, none, []⟩ := by
  have hroom := h.room
  have hsize := h.size
  have hcount := h.count
  have hrecords := h.records
  have hdata : ¬kernel.available < spec.size - kernel.blocks * 512 + limits.freeBytes := by omega
  have hchunks : ¬kernel.available <
      journalBytes spec.size - kernel.blocks * 512 + limits.freeBytes := by omega
  have hpos : spec.size + journalBytes spec.size ≠ 0 := by
    have hnonempty := h.nonempty
    omega
  simp only [Serves, dispatch, start]
  simp [prepare, prepareData, prepareChunks, requireRoom, h.quota, h.expected, h.writable,
    State.Terminal, not_lt.mpr hsize, not_le.mpr hcount, not_le.mpr hrecords, not_lt.mpr hroom,
    hdata, hchunks, setData, setChunks]
  exact ⟨_, ⟨rfl, ⟨_, rfl⟩, rfl, rfl, rfl, rfl, rfl, rfl, rfl, hpos⟩, rfl⟩

/-- A transfer that has been started is found again. -/
theorem Receiving.serves_start (h : Receiving root spec ino bytes chunks record s)
    (hsize : spec.size ≤ MAX_FILE) (preparing : Bool) :
    Serves (dispatch kernel root (.start spec preparing limits)) (fun _ t => t = s) s := by
  simp only [Serves, dispatch, start]
  simp [prepare, h.record_eq, h.digest, h.prepared, not_lt.mpr hsize]

omit [Hashing] in
/-- The requests about a transfer that has been started. -/
theorem Receiving.serves_load (h : Receiving root spec ino bytes chunks record s)
    {p : Record → Action Record} {ok : Record → Node → Prop} (hp : Serves (p record) ok s) :
    Serves (do
      let s ← disk
      let record ← demand s.record
        (.error "transfer_missing" "The transfer receipt is unavailable.")
      refuseIf (record.rootId ≠ root.id)
        (.error "transfer_missing" "The transfer receipt is unavailable.")
      p record) ok s := by
  simpa [Serves, h.record_eq, h.rootId] using hp

omit [Hashing] in
/-- The state and the digest of the prefix may change. -/
theorem Receiving.saved (h : Receiving root spec ino bytes chunks record s) (state : State)
    (prefixSha256 : Option Digest) :
    Receiving root spec ino bytes chunks { record with state, prefixSha256 }
      { s with record := some { record with state, prefixSha256 } } :=
  ⟨h.destination, h.staging, rfl, h.accepted, h.prepared, h.digest, h.rootId, h.size, h.offset,
    h.reserved⟩

/-- The next chunk is received. -/
theorem Receiving.serves_next (h : Receiving root spec ino bytes chunks record s)
    (kernel : Kernel) (hstate : record.state = .running) {offset : ℕ}
    (hoffset : bytes.length = offset) (hwhole : offset % CHUNK = 0)
    (hjournal : offset / CHUNK = chunks.length)
    (hlength : data.length = min CHUNK (spec.size - offset)) (hne : data ≠ []) :
    Serves (dispatch kernel root (.write offset data (some (Hashing.sha256 data))))
      (fun reply t => Receiving root spec ino (bytes ++ data) (chunks ++ [Hashing.sha256 data])
        reply t ∧ reply.state = .running) s := by
  subst hoffset
  obtain ⟨stamp, hstaging⟩ := h.staging
  have hend : pwrite 0 bytes data bytes.length = bytes ++ data := by simp [pwrite]
  refine h.serves_load ?_
  simp [Serves, writeChunk, dataFile, journal, hstaging, h.offset, h.size, hstate, h.reserved,
    hwhole, hlength, hne, setData, setChunks, hend, hjournal]
  refine ⟨h.destination, ⟨kernel.stamp, ?_⟩, rfl, congrArg (· ++ data) h.accepted, h.prepared,
    h.digest, h.rootId, rfl, ?_, h.reserved⟩
  · simp [pwrite]
  · rw [List.length_append, hlength]

/-- A chunk that has been received is found the same. -/
theorem Receiving.serves_again (h : Receiving root spec ino bytes chunks record s)
    (hstate : record.state = .running) {offset : ℕ} (hwhole : offset % CHUNK = 0)
    (hlt : offset < bytes.length) (hne : data ≠ [])
    (hlength : data.length = min CHUNK (spec.size - offset))
    (hsame : pread bytes data.length offset = data)
    (hentry : chunks[offset / CHUNK]? = some (Hashing.sha256 data)) :
    Serves (dispatch kernel root (.write offset data (some (Hashing.sha256 data))))
      (fun reply t => reply = record ∧ t = s) s := by
  obtain ⟨stamp, hstaging⟩ := h.staging
  have hbefore : ¬bytes.length < offset := by omega
  rw [hlength] at hsame
  refine h.serves_load ?_
  simp [Serves, writeChunk, dataFile, journal, hstaging, h.offset, h.size, hstate, hwhole, hbefore,
    hlt, hlength, hne, hsame, hentry]

/-- The transfer is interrupted. -/
theorem Receiving.serves_cancel (h : Receiving root spec ino bytes chunks record s)
    (hstate : record.state = .running) : Serves (dispatch kernel root (.cancel false))
      (fun reply t => Receiving root spec ino bytes chunks reply t ∧ reply.state = .interrupted)
      s := by
  refine h.serves_load ?_
  simp [Serves, cancel, hstate]
  exact h.saved .interrupted record.prefixSha256

/-- The transfer is resumed when its journal verifies the received bytes. -/
theorem Receiving.serves_resume (h : Receiving root spec ino bytes chunks record s)
    (hstate : record.state = .interrupted) (hjournal : journalEntries bytes.length = chunks.length)
    {hashed : Digest} (hread : readPrefix record bytes chunks = .ok hashed) :
    Serves (dispatch kernel root .resume)
      (fun reply t => Receiving root spec ino bytes chunks reply t ∧ reply.state = .running) s := by
  obtain ⟨stamp, hstaging⟩ := h.staging
  have hprepare : Serves (prepare kernel record) (fun next t => next = record ∧ t = s) s := by
    simp [Serves, prepare, h.prepared]
  have hverify : Serves (verifyPrefix kernel record)
      (fun _ t => Receiving root spec ino bytes chunks record t) s := by
    have hentries : chunks.take (journalEntries bytes.length) = chunks := by
      rw [hjournal, List.take_length]
    simp [Serves, verifyPrefix, dataFile, journal, hstaging, hread, h.offset, h.reserved, setData,
      setChunks, hentries, h]
    intro _
    exact ⟨h.destination, ⟨_, rfl⟩, h.record_eq, h.accepted, h.prepared, h.digest, h.rootId,
      h.size, h.offset, h.reserved⟩
  refine h.serves_load (wp_seq hprepare ?_)
  rintro _ _ ⟨rfl, rfl⟩
  rw [wp_bind, wp_refuseIf]
  refine ⟨fun hrefused => hrefused (.inr hstate), fun _ => wp_seq hverify ?_⟩
  intro hashed t ht
  rw [wp_bind, wp_save, wp_pure]
  exact ⟨trivial, ht.saved .running (some hashed), rfl⟩

end Node

namespace Upload

variable [Hashing] [Hash (Root × Spec)]

/-- A call that is answered, and that no late request comes before. -/
structure Answered (call : Call) : Prop where
  stop : call.stop = none
  answer : call.answer = .received
  outlived : call.outlived = false
  arrivals : call.arrivals = []

/-- The node has received the given bytes of a new file. -/
def Receives (root : Root) (spec : Spec) (ino : ℕ) (bytes : Bytes) (chunks : List Digest)
    (state : State) (node : Node) : Prop :=
  ∃ record, Node.Receiving root spec ino bytes chunks record node ∧ record.state = state

/-- The call finds or starts the transfer of a new file, of which the node has then received the
given bytes. -/
def Begins (root : Root) (spec : Spec) (ino : ℕ) (bytes : Bytes) (chunks : List Digest)
    (state : State) (preparing : Bool) (call : Call) (s : Upload) : Prop :=
  ∃ reply t, s.exchange root (.start spec preparing call.limits) call =
    ({ s with node := t }, .ok reply) ∧ Receives root spec ino bytes chunks state t

variable {root : Root} {spec : Spec} {ino : ℕ} {bytes : Bytes} {chunks : List Digest}
  {state : State} {s : Upload} {call : Call} {request : Request} {ok : Record → Node → Prop}

/-- A request that the node carries out to its end is answered. -/
theorem exchange_eq_of_serves (hcall : Answered call) (hfresh : Node.Fresh s.node call.kernel)
    (hserves : Node.Serves (Node.dispatch call.kernel root request) ok s.node) :
    ∃ reply t, s.exchange root request call = ({ s with node := t }, .ok reply) ∧ ok reply t := by
  obtain ⟨reply, hresult, hok⟩ := returns_of_wp hserves
  refine ⟨reply, _, ?_, hok⟩
  simp [exchange, answered, hcall.arrivals, hcall.outlived, hcall.stop, hcall.answer, hfresh, hresult,
    Except.mapError]

/-- A late request that the node carries out to its end. -/
theorem arrive_eq_of_serves (arrival : Arrival) (hlate : arrival.late ∈ s.late)
    (hstop : arrival.stop = none) (hfresh : Node.Fresh s.node arrival.kernel)
    (hserves : Node.Serves (Node.dispatch arrival.kernel root arrival.late.request) ok s.node) :
    ∃ reply t, s.arrive root arrival = { s with node := t, late := s.late.erase arrival.late } ∧
      ok reply t := by
  obtain ⟨reply, -, hok⟩ := returns_of_wp hserves
  exact ⟨reply, _, by rw [arrive, if_pos ⟨hlate, hfresh⟩, hstop], hok⟩

omit [Hashing] in
/-- The node can make new files beside the one that it receives. -/
theorem Receives.fresh {node : Node} (h : Receives root spec ino bytes chunks state node)
    {kernel : Kernel} (hne : kernel.inode ≠ ino) : Node.Fresh node kernel := by
  obtain ⟨record, hreceiving, -⟩ := h
  obtain ⟨stamp, hstaging⟩ := hreceiving.staging
  simp [Node.Fresh, Node.inodes, Node.data, hreceiving.destination, hstaging, hne]

/-- The first call of an upload starts the transfer. -/
theorem begins_submitted (hroom : Node.Roomy root spec call.limits call.kernel)
    (hcall : Answered call) :
    Begins root spec call.kernel.inode [] [] .running true call (submitted spec none) :=
  exchange_eq_of_serves hcall List.not_mem_nil (Node.serves_start_new hroom)

/-- Every later call finds it. -/
theorem Receives.begins (h : Receives root spec ino bytes chunks state s.node)
    (hsize : spec.size ≤ MAX_FILE) (hcall : Answered call) (hne : call.kernel.inode ≠ ino)
    (preparing : Bool) : Begins root spec ino bytes chunks state preparing call s := by
  obtain ⟨record, hreceiving, hstate⟩ := h
  obtain ⟨reply, t, heq, rfl⟩ := exchange_eq_of_serves hcall
    (Receives.fresh ⟨record, hreceiving, hstate⟩ hne) (hreceiving.serves_start hsize preparing)
  exact ⟨reply, s.node, heq, record, hreceiving, hstate⟩

/-- A chunk that the node takes, while the controller waits for no other one. -/
theorem Begins.upload {begun written : Call} {data after : Bytes} {journal : List Digest}
    (h : Begins root spec ino bytes chunks .running true begun s) (offset : ℕ)
    (hspec : s.item.spec = spec) (hstate : s.item.state = .queued ∨ s.item.state = .of .running)
    (hready : Pending s.item → offset ≤ s.item.replayOffset) (hwritten : Answered written)
    (hne : written.kernel.inode ≠ ino)
    (hserves : ∀ record t, Node.Receiving root spec ino bytes chunks record t →
      record.state = .running → Node.Serves (Node.dispatch written.kernel root
        (.write offset data (some (Hashing.sha256 data)))) (fun reply t =>
          Node.Receiving root spec ino after journal reply t ∧ reply.state = .running) t) :
    ∃ t, s.upload root offset data (some (Hashing.sha256 data)) begun written =
      ({ s with
        item := { s.item with
          offset := after.length, state := .of .running, error := none
          replayOffset :=
            if s.item.replayOffset < s.item.replayUntil ∧ offset = s.item.replayOffset then
              s.item.replayOffset + data.length
            else s.item.replayOffset }
        node := t }, none) ∧ Receives root spec ino after journal .running t := by
  obtain ⟨first, t, hbegun, hreceives⟩ := h
  obtain ⟨record, hreceiving, hrunning⟩ := id hreceives
  obtain ⟨reply, u, hwrite, hafter, hreply⟩ :=
    exchange_eq_of_serves (s := { s with node := t }) hwritten (hreceives.fresh hne)
      (hserves record t hreceiving hrunning)
  have hwait : ¬(s.item.replayOffset < s.item.replayUntil ∧ s.item.replayOffset < offset) :=
    fun hwaits => absurd (hready hwaits.1) (not_le.mpr hwaits.2)
  refine ⟨u, ?_, reply, hafter, hreply⟩
  rw [Upload.upload]
  simp only [hstate, not_true, if_false, if_neg hwait, hspec, hbegun, hwrite, hafter.offset]

/-- A chunk that outlives its call stays on the way. -/
theorem Begins.upload_outlived {written : Call}
    (h : Begins root spec ino bytes chunks .running true call s) (offset : ℕ) (data : Bytes)
    (digest : Option Digest) (hspec : s.item.spec = spec)
    (hstate : s.item.state = .queued ∨ s.item.state = .of .running)
    (hready : Pending s.item → offset ≤ s.item.replayOffset) (harrivals : written.arrivals = [])
    (houtlived : written.outlived = true) :
    ∃ t, s.upload root offset data digest call written =
      ({ s with node := t, late := ⟨s.session, .write offset data digest⟩ :: s.late },
        some written.answer.failure) ∧ Receives root spec ino bytes chunks .running t := by
  obtain ⟨first, t, hbegun, hreceives⟩ := h
  have hwait : ¬(s.item.replayOffset < s.item.replayUntil ∧ s.item.replayOffset < offset) :=
    fun hwaits => absurd (hready hwaits.1) (not_le.mpr hwaits.2)
  have hwrite : exchange root { s with node := t } (.write offset data digest) written =
      ({ s with node := t, late := ⟨s.session, .write offset data digest⟩ :: s.late },
        .error written.answer.failure) := by
    rw [exchange, harrivals, run_nil, answered, houtlived, if_pos rfl]
  refine ⟨t, ?_, hreceives⟩
  rw [Upload.upload]
  simp only [hstate, not_true, if_false, if_neg hwait, hspec, hbegun, hwrite]

/-- An upload is interrupted by its client. -/
theorem Begins.cancel {changed : Call} (h : Begins root spec ino bytes chunks .running false call s)
    (looked committed : Call) (hspec : s.item.spec = spec)
    (hstate : s.item.state = .queued ∨ s.item.state = .of .running) (hchanged : Answered changed)
    (hne : changed.kernel.inode ≠ ino) :
    ∃ t, s.change root false false looked committed call changed =
      ({ s with
        item := { s.item with state := .of .interrupted, offset := bytes.length, error := none }
        node := t }, none) ∧ Receives root spec ino bytes chunks .interrupted t := by
  obtain ⟨first, t, hbegun, hreceives⟩ := h
  obtain ⟨record, hreceiving, hrunning⟩ := id hreceives
  obtain ⟨reply, u, hcancel, hafter, hreply⟩ :=
    exchange_eq_of_serves (s := { s with node := t }) hchanged (hreceives.fresh hne)
      (hreceiving.serves_cancel hrunning)
  refine ⟨u, ?_, reply, hafter, hreply⟩
  rw [Upload.change, Upload.restart]
  obtain hstate | hstate := hstate <;>
    simp [hstate, hspec, hbegun, hcancel, hafter.offset, hreply]

/-- An interrupted upload with a source manifest is resumed. -/
theorem Begins.resume {changed : Call}
    (h : Begins root spec ino bytes chunks .interrupted true call s)
    (discard : Bool) (looked committed : Call) (hspec : s.item.spec = spec)
    (hstate : s.item.state = .of .interrupted) (hsource : spec.sourceManifest ≠ none)
    (hchanged : Answered changed) (hne : changed.kernel.inode ≠ ino)
    (hserves : ∀ record t, Node.Receiving root spec ino bytes chunks record t →
      record.state = .interrupted → Node.Serves (Node.dispatch changed.kernel root .resume)
        (fun reply t =>
          Node.Receiving root spec ino bytes chunks reply t ∧ reply.state = .running) t) :
    ∃ t, s.change root true discard looked committed call changed =
      ({ s with
        item := { s.item with
          state := .of .running, offset := bytes.length, error := none, replayOffset := 0
          replayUntil := bytes.length }
        node := t, session := s.session + 1 }, none) ∧
      Receives root spec ino bytes chunks .running t := by
  obtain ⟨first, t, hbegun, hreceives⟩ := h
  obtain ⟨record, hreceiving, hinterrupted⟩ := id hreceives
  obtain ⟨reply, u, hresume, hafter, hreply⟩ :=
    exchange_eq_of_serves (s := { s with node := t }) hchanged (hreceives.fresh hne)
      (hserves record t hreceiving hinterrupted)
  refine ⟨u, ?_, reply, hafter, hreply⟩
  rw [Upload.change, Upload.restart]
  simp [hstate, hspec, hbegun, hresume, hafter.offset, hsource]

end Upload

end Ficc.Transfers
