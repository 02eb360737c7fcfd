import Ficc.Transfers.Answers
import Ficc.Transfers.Held

/-!
# A resumed upload proves its prefix

After a resumption the accepted bytes grow only when the client has sent all of the accepted prefix
again. The controller counts how far the client has come, and the node compares each chunk; the
invariant `Proven` ties the two together: the chunks sent since the resumption cover the accepted
bytes up to the point that the controller has counted, or all of them when it counts no longer.

A chunk that was sent before the resumption and that the node carries out after it breaks this. The
runs below are those in which every late chunk is `Timely`: it was sent since the last resumption, or
it lies before the end of the accepted bytes.

## Main results

* `Proven.step`: every action keeps the invariant.
* `resume_proves_prefix`: what a client has sent when the accepted bytes grow, and that a published
  file consists of the chunks of one session.
-/

namespace Ficc.Transfers

open Execution (Identity Digest Hash)
open Durable
open Node (Held Sound Whole Chunk Taken Taking)

section Covers

/-- The chunks cover the first bytes of the accepted ones. -/
def Covers (sent : List (ℕ × Bytes)) (accepted : Bytes) (length : ℕ) : Prop :=
  ∀ offset, offset % CHUNK = 0 → offset < length → (offset, pread accepted CHUNK offset) ∈ sent

variable {sent : List (ℕ × Bytes)} {accepted bytes before : Bytes} {size length offset : ℕ}

theorem covers_zero (sent : List (ℕ × Bytes)) (accepted : Bytes) : Covers sent accepted 0 :=
  fun _ _ h => absurd h (Nat.not_lt_zero _)

/-- What has been sent stays sent. -/
theorem Covers.mono (h : Covers sent accepted length) {more : List (ℕ × Bytes)}
    (hmore : sent ⊆ more) : Covers more accepted length :=
  fun offset haligned hlt => hmore (h offset haligned hlt)

/-- One more chunk. -/
theorem Covers.next (h : Covers sent accepted offset) (haligned : offset % CHUNK = 0)
    (hsent : (offset, pread accepted CHUNK offset) ∈ sent) (hlength : length ≤ CHUNK) :
    Covers sent accepted (offset + length) := by
  intro other hother hlt
  by_cases hbefore : other < offset
  · exact h other hother hbefore
  · obtain rfl : other = offset := by
      simp only [CHUNK] at haligned hother hlength
      omega
    exact hsent

/-- The accepted bytes with the next chunk. -/
theorem Covers.append (h : Covers sent accepted accepted.length)
    (hchunk : Chunk size accepted.length bytes) (hsent : (accepted.length, bytes) ∈ sent) :
    Covers sent (accepted ++ bytes) (accepted ++ bytes).length := by
  have hlength : bytes.length ≤ CHUNK := hchunk.length.trans_le (min_le_left _ _)
  rw [List.length_append]
  refine Covers.next (fun offset haligned hlt => ?_) hchunk.aligned ?_ hlength
  · rw [Node.pread_append haligned hchunk.aligned hlt]
    exact h offset haligned hlt
  · have hlast : pread (accepted ++ bytes) CHUNK accepted.length = bytes := by
      rw [pread, List.drop_left, List.take_of_length_le hlength]
    rwa [hlast]

/-- What covers the accepted bytes covers those from before. -/
theorem Covers.prefix (h : Covers sent accepted accepted.length) (hbefore : before <+: accepted)
    (hwhole : Whole before size) (hle : accepted.length ≤ size) :
    Covers sent before before.length := by
  obtain ⟨bytes, rfl⟩ := hbefore
  intro offset haligned hlt
  have hsent := h offset haligned (by rw [List.length_append]; omega)
  rcases hwhole.2 with hblocks | hend
  · rwa [Node.pread_append haligned hblocks hlt] at hsent
  · obtain rfl : bytes = [] := by
      rw [List.length_append] at hle
      exact List.eq_nil_of_length_eq_zero (by omega)
    rwa [List.append_nil] at hsent

/-- Bytes whose chunks are those of a file are that file. -/
theorem eq_of_covers (h : Covers sent accepted accepted.length) {file : Bytes}
    (hlength : file.length = accepted.length)
    (hfile : ∀ chunk ∈ sent, chunk.2 = pread file chunk.2.length chunk.1) : accepted = file := by
  -- The chunks up to every offset agree, and all bytes lie before some offset.
  have hblocks : ∀ n, accepted.take (n * CHUNK) = file.take (n * CHUNK) := by
    intro n
    induction n with
    | zero => simp
    | succ n ih =>
      have hchunk : pread accepted CHUNK (n * CHUNK) = pread file CHUNK (n * CHUNK) := by
        by_cases hlt : n * CHUNK < accepted.length
        · have heq := hfile _ (h (n * CHUNK) (Nat.mul_mod_left n CHUNK) hlt)
          have hlen : (pread accepted CHUNK (n * CHUNK)).length =
              min CHUNK (file.length - n * CHUNK) := by
            rw [pread, List.length_take, List.length_drop, hlength]
          dsimp only at heq
          rw [hlen] at heq
          rw [heq, pread, pread]
          refine List.take_eq_take_iff.mpr ?_
          rw [List.length_drop]
          omega
        · rw [pread, pread, List.drop_eq_nil_of_le (by omega), List.drop_eq_nil_of_le (by omega)]
      rw [Nat.succ_mul, List.take_add, List.take_add, ih]
      exact congrArg _ hchunk
  have hall := hblocks accepted.length
  have hle : accepted.length ≤ accepted.length * CHUNK :=
    Nat.le_mul_of_pos_right _ (by decide)
  rwa [List.take_of_length_le hle, List.take_of_length_le (by omega)] at hall

end Covers

namespace Upload

variable [Hashing] [Hash (Root × Spec)]

section Requests

variable {root : Root} {old : Option File} {accepted : Bytes} {size : ℕ} {node : Node}
  {request : Request} {kernel : Kernel}

/-- What is known of a node. -/
structure Known (old : Option File) (accepted : Bytes) (size : ℕ) (node : Node) : Prop where
  sound : Sound old (fun _ => True) True node
  held : Held accepted size node

omit [Hash (Root × Spec)] in
theorem Known.retains (h : Known old accepted size node) (action : Node.Step) :
    Node.Retains node action := by
  intro _ record hrecord hdelete
  rw [(h.held.record record hrecord).2] at hdelete
  exact Bool.false_ne_true hdelete.2

/-- A request keeps the node sound. -/
theorem Known.wp_sound (h : Known old accepted size node) (hfresh : Node.Fresh node kernel) :
    wp (Node.dispatch kernel root request)
      (fun _ => Sound old (fun _ => True) True) (fun _ => Sound old (fun _ => True) True)
      (Sound old (fun _ => True) True) node :=
  have hfresh' : Node.Fresh node (Node.Step.mk kernel root request none).kernel := hfresh
  wp_mono (Node.wp_dispatch h.sound hfresh' (h.retains _) (fun _ _ => trivial)
    fun _ _ _ _ _ _ _ => trivial) (fun _ _ h => h.1) (fun _ _ h => h) fun _ h => h

/-- A request that is not a chunk. -/
theorem Known.wp_held (h : Known old accepted size node) (hroot : root.downloads = false)
    (hfresh : Node.Fresh node kernel)
    (hstart : ∀ spec preparing limits, request = .start spec preparing limits → spec.size = size)
    (hwrite : ∀ offset bytes digest, request ≠ .write offset bytes digest) :
    wp (Node.dispatch kernel root request) (fun _ => Known old accepted size)
      (fun _ => Known old accepted size) (Known old accepted size) node :=
  wp_mono (wp_and (h.wp_sound hfresh) (Node.wp_dispatch_held h.held hroot request hstart hwrite))
    (fun _ _ h => ⟨h.1, h.2⟩) (fun _ _ h => ⟨h.1, h.2⟩) fun _ h => ⟨h.1, h.2⟩

/-- A chunk. -/
theorem Known.wp_write (h : Known old accepted size node) (hwhole : Whole accepted size)
    (hfresh : Node.Fresh node kernel) (offset : ℕ) (bytes : Bytes) (digest : Option Digest) :
    wp (Node.dispatch kernel root (.write offset bytes digest))
      (fun _ => Taken accepted size offset bytes) (fun _ _ => True)
      (fun t => Sound old (fun _ => True) True t ∧ Taking accepted size offset bytes t) node :=
  wp_mono (wp_and (h.wp_sound hfresh) (Node.wp_dispatch_write h.sound h.held hwhole digest))
    (fun _ _ h => h.2) (fun _ _ _ => trivial) fun _ h => h

/-- An answered resumption. -/
theorem Known.wp_resume (h : Known old accepted size node) (hfresh : Node.Fresh node kernel) :
    wp (Node.dispatch kernel root .resume)
      (fun reply t => t.record = some reply ∧ reply.state = .running ∧
        t.accepted.length = reply.offset) (fun _ _ => True) (fun _ => True) node := by
  refine wp_mono (Node.wp_dispatch_resume h.sound hfresh) ?_ (fun _ _ _ => trivial) fun _ _ => trivial
  rintro reply t ⟨⟨hsound, hrecord⟩, hstate⟩
  exact ⟨hrecord, hstate, (hsound.kept_of_record hrecord).length⟩

end Requests

/-! ### What has been sent -/

/-- The chunks that a client sends. -/
def sends : Action → List (ℕ × Bytes)
  | .upload offset data _ _ _ => [(offset, data)]
  | _ => []

/-- The chunks that a client sends in a session. -/
def sentIn (root : Root) (session : ℕ) : Upload → List Action → List (ℕ × Bytes)
  | _, [] => []
  | s, action :: actions =>
    (if s.session = session then sends action else []) ++
      sentIn root session (s.step root action) actions

/-- How many of the accepted bytes the client has proved to have. -/
def verified (item : Item) (accepted : Bytes) : ℕ :=
  if Pending item then item.replayOffset else accepted.length

/-- A late chunk was sent since the last resumption, or it lies before the end of the accepted
bytes. -/
def Punctual (s : Upload) (late : Late) : Prop :=
  match late.request with
  | .write offset _ _ => late.session = s.session ∨ offset < s.node.accepted.length
  | _ => True

/-- All late chunks among the requests are punctual. -/
def AllPunctual (s : Upload) (arrivals : List Arrival) : Prop :=
  ∀ arrival ∈ arrivals, arrival.late ∈ s.late → s.Punctual arrival.late

/-- All late chunks that are carried out in the course of the action are punctual. -/
def Timely (s : Upload) (action : Action) : Prop := s.AllPunctual action.arrivals

section Proof

/-- What a request may ask for: a chunk that was accepted before, or one that the client has sent
while the controller waits for nothing. -/
def Suits (spec : Spec) (sent : List (ℕ × Bytes)) (s : Upload) : Request → Prop
  | .start other _ _ => other = spec
  | .write offset bytes _ =>
    offset < s.node.accepted.length ∨ (offset, bytes) ∈ sent ∧ ¬Pending s.item
  | _ => True

/-- What has been sent proves how far an upload has come since it had the given accepted bytes. -/
structure Proven (spec : Spec) (old : Option File) (before : Bytes)
    (chunks : ℕ → List (ℕ × Bytes)) (s : Upload) : Prop where
  spec_eq : s.item.spec = spec
  known : Known old s.node.accepted spec.size s.node
  whole : Whole s.node.accepted spec.size
  whole_before : Whole before spec.size
  extends_before : before <+: s.node.accepted
  pending : Pending s.item → s.item.replayUntil = s.node.accepted.length
  covered : Covers (chunks s.session) s.node.accepted (verified s.item s.node.accepted)
  settled : s.node.accepted = before ∨
    ∃ session, Covers (chunks session) s.node.accepted s.node.accepted.length
  earlier : ∀ late ∈ s.late, late.session ≤ s.session
  suits : ∀ late ∈ s.late, s.Punctual late → Suits spec (chunks s.session) s late.request

/-- Nothing but late requests has been carried out since, and perhaps one more. -/
structure Since (s t : Upload) : Prop where
  item : t.item = s.item
  session : t.session = s.session
  late : t.late ⊆ s.late
  accepted : s.node.accepted.length ≤ t.node.accepted.length

variable {root : Root} {spec : Spec} {old : Option File} {before : Bytes}
  {chunks : ℕ → List (ℕ × Bytes)} {s t u : Upload}

section

omit [Hashing] [Hash (Root × Spec)]

theorem Since.refl (s : Upload) : Since s s := ⟨rfl, rfl, List.Subset.refl _, le_rfl⟩

theorem Since.trans (h : Since s t) (h' : Since t u) : Since s u :=
  ⟨h'.item.trans h.item, h'.session.trans h.session, List.Subset.trans h'.late h.late,
    h.accepted.trans h'.accepted⟩

/-- A late request that is punctual stays so. -/
theorem Punctual.since {late : Late} (h : s.Punctual late) (hsince : Since s t) :
    t.Punctual late := by
  unfold Punctual at h ⊢
  split
  · rename_i hrequest
    rw [hrequest] at h
    rw [hsince.session]
    exact h.imp_right fun hlt => hlt.trans_le hsince.accepted
  · trivial

theorem AllPunctual.since {arrivals : List Arrival} (h : s.AllPunctual arrivals)
    (hsince : Since s t) : t.AllPunctual arrivals :=
  fun arrival harrival hlate => (h arrival harrival (hsince.late hlate)).since hsince

/-- What suits an upload suits it when more has been accepted and sent. -/
theorem Suits.mono {sent sent' : List (ℕ × Bytes)} {request : Request}
    (h : Suits spec sent s request) (hsent : sent ⊆ sent')
    (haccepted : s.node.accepted.length ≤ t.node.accepted.length)
    (hpending : ¬Pending s.item → ¬Pending t.item) : Suits spec sent' t request := by
  cases request with
  | write offset bytes digest =>
    exact h.imp (fun hlt => hlt.trans_le haccepted) fun hnext => ⟨hsent hnext.1, hpending hnext.2⟩
  | start other preparing limits => exact h
  | _ => trivial

/-- The late requests suit an upload that has gone on. -/
theorem suits_late {sent sent' : List (ℕ × Bytes)}
    (h : ∀ late ∈ s.late, s.Punctual late → Suits spec sent s late.request)
    (hlate : t.late ⊆ s.late) (hsession : t.session = s.session) (hsent : sent ⊆ sent')
    (haccepted : s.node.accepted.length ≤ t.node.accepted.length)
    (hpending : ¬Pending s.item → ¬Pending t.item) :
    ∀ late ∈ t.late, t.Punctual late → Suits spec sent' t late.request := by
  rintro ⟨session, request⟩ hmem hpunctual
  have hsuits := h _ (hlate hmem)
  cases request with
  | write offset bytes digest =>
    obtain hnow | hbefore : session = t.session ∨ offset < t.node.accepted.length := hpunctual
    · exact (hsuits (.inl (hnow.trans hsession))).mono hsent haccepted hpending
    · exact .inl hbefore
  | start other preparing limits => exact hsuits trivial
  | _ => trivial

end

section

omit [Hash (Root × Spec)]

/-- More may have been sent. -/
theorem Proven.more (h : Proven spec old before chunks s) {more : ℕ → List (ℕ × Bytes)}
    (hmore : ∀ session, chunks session ⊆ more session) : Proven spec old before more s :=
  { h with
    covered := h.covered.mono (hmore _)
    settled := h.settled.imp_right fun ⟨session, hcovers⟩ => ⟨session, hcovers.mono (hmore session)⟩
    suits := suits_late h.suits (List.Subset.refl _) rfl (hmore _) le_rfl id }

/-- When the controller waits for nothing, all accepted bytes are covered. -/
theorem Proven.covers (h : Proven spec old before chunks s) (hpending : ¬Pending s.item) :
    Covers (chunks s.session) s.node.accepted s.node.accepted.length := by
  have hcovered := h.covered
  rwa [verified, if_neg hpending] at hcovered

/-- Another node with the same accepted bytes. -/
theorem Proven.with_node (h : Proven spec old before chunks s) {node : Node}
    (hknown : Known old s.node.accepted spec.size node) :
    Proven spec old before chunks { s with node } := by
  have haccepted := hknown.held.accepted_eq
  exact {
    spec_eq := h.spec_eq
    known := by rwa [haccepted]
    whole := by rw [haccepted]; exact h.whole
    whole_before := h.whole_before
    extends_before := by rw [haccepted]; exact h.extends_before
    pending := by rw [haccepted]; exact h.pending
    covered := by rw [haccepted]; exact h.covered
    settled := by rw [haccepted]; exact h.settled
    earlier := h.earlier
    suits := suits_late h.suits (List.Subset.refl _) rfl (List.Subset.refl _)
      (le_of_eq (congrArg List.length haccepted.symm)) id }

/-- Another item that waits for the same bytes. -/
theorem Proven.with_item (h : Proven spec old before chunks s) {item : Item}
    (hspec : item.spec = s.item.spec) (hoffset : item.replayOffset = s.item.replayOffset)
    (huntil : item.replayUntil = s.item.replayUntil) :
    Proven spec old before chunks { s with item } := by
  have hpending : Pending item ↔ Pending s.item := by rw [Pending, Pending, hoffset, huntil]
  exact {
    spec_eq := hspec.trans h.spec_eq
    known := h.known
    whole := h.whole
    whole_before := h.whole_before
    extends_before := h.extends_before
    pending := fun hnow => huntil.trans (h.pending (hpending.mp hnow))
    covered := by
      have hverified : verified item s.node.accepted = verified s.item s.node.accepted := by
        rw [verified, verified, hoffset]
        exact if_congr hpending rfl rfl
      change Covers (chunks s.session) s.node.accepted (verified item s.node.accepted)
      rw [hverified]
      exact h.covered
    settled := h.settled
    earlier := h.earlier
    suits := suits_late h.suits (List.Subset.refl _) rfl (List.Subset.refl _) le_rfl
      fun hnot hnow => hnot (hpending.mp hnow) }

/-- Late requests that are there no more. -/
theorem Proven.with_late (h : Proven spec old before chunks s) {late : List Late}
    (hlate : late ⊆ s.late) : Proven spec old before chunks { s with late } :=
  { h with
    earlier := fun other hother => h.earlier other (hlate hother)
    suits := suits_late h.suits hlate rfl (List.Subset.refl _) le_rfl id }

/-- A request that outlives its call. -/
theorem Proven.outlived (h : Proven spec old before chunks s) {request : Request}
    (hsuits : Suits spec (chunks s.session) s request) :
    Proven spec old before chunks { s with late := ⟨s.session, request⟩ :: s.late } :=
  { h with
    earlier := List.forall_mem_cons.mpr ⟨le_rfl, h.earlier⟩
    suits := List.forall_mem_cons.mpr ⟨fun _ => hsuits, h.suits⟩ }

/-- The next chunk is accepted. -/
theorem Proven.accept (h : Proven spec old before chunks s) {bytes : Bytes} {node : Node}
    (hpending : ¬Pending s.item) (hchunk : Chunk spec.size s.node.accepted.length bytes)
    (hsent : (s.node.accepted.length, bytes) ∈ chunks s.session)
    (hknown : Known old (s.node.accepted ++ bytes) spec.size node) :
    Proven spec old before chunks { s with node } := by
  have haccepted := hknown.held.accepted_eq
  have hnext := (h.covers hpending).append hchunk hsent
  exact {
    spec_eq := h.spec_eq
    known := by rwa [haccepted]
    whole := by rw [haccepted]; exact hchunk.whole_append
    whole_before := h.whole_before
    extends_before := by
      rw [haccepted]
      exact h.extends_before.trans (List.prefix_append _ _)
    pending := fun hpending' => absurd hpending' hpending
    covered := by
      rw [verified, if_neg hpending, haccepted]
      exact hnext
    settled := .inr ⟨s.session, by rwa [haccepted]⟩
    earlier := h.earlier
    suits := suits_late h.suits (List.Subset.refl _) rfl (List.Subset.refl _) (by
      rw [show (({ s with node } : Upload).node).accepted = s.node.accepted ++ bytes from haccepted,
        List.length_append]
      exact Nat.le_add_right _ _) id }

end

variable {request : Request} {call begun committed changed : Call} {reply : Record} {item : Item}
  {discard : Bool}

/-- The node carries out a request. -/
theorem Proven.serve (h : Proven spec old before chunks s) (hroot : root.downloads = false)
    {kernel : Kernel} (hfresh : Node.Fresh s.node kernel)
    (hsuits : Suits spec (chunks s.session) s request) (stop : Option ℕ) :
    let node := cut (Node.dispatch kernel root request) s.node stop
    Proven spec old before chunks { s with node } ∧
      s.node.accepted.length ≤ node.accepted.length := by
  intro node
  by_cases hwrite : ∃ offset bytes digest, request = .write offset bytes digest
  · obtain ⟨offset, bytes, digest, rfl⟩ := hwrite
    obtain ⟨hsound, hheld | ⟨hchunk, hlast, hheld⟩⟩ :=
      cut_of_wp (h.known.wp_write h.whole hfresh offset bytes digest)
        ⟨h.known.sound, .inl h.known.held⟩ stop
    · exact ⟨h.with_node ⟨hsound, hheld⟩, (congrArg List.length hheld.accepted_eq).ge⟩
    · -- Only a chunk that the client has sent in this session goes behind the accepted bytes.
      obtain hbefore | ⟨hsent, hpending⟩ := hsuits
      · exact absurd hlast hbefore.ne
      · subst hlast
        refine ⟨h.accept hpending hchunk hsent ⟨hsound, hheld⟩, ?_⟩
        rw [hheld.accepted_eq, List.length_append]
        exact Nat.le_add_right _ _
  · have hstart : ∀ other preparing limits, request = .start other preparing limits →
        other.size = spec.size := by
      rintro other preparing limits rfl
      rw [show other = spec from hsuits]
    have hknown : Known old s.node.accepted spec.size node :=
      cut_of_wp (h.known.wp_held hroot hfresh hstart fun offset bytes digest heq =>
        hwrite ⟨offset, bytes, digest, heq⟩) h.known stop
    exact ⟨h.with_node hknown, (congrArg List.length hknown.held.accepted_eq).ge⟩

/-- A late request is carried out. -/
theorem Proven.arrive (h : Proven spec old before chunks s) (hroot : root.downloads = false)
    {arrival : Arrival} (hpunctual : arrival.late ∈ s.late → s.Punctual arrival.late) :
    Proven spec old before chunks (s.arrive root arrival) ∧ Since s (s.arrive root arrival) := by
  unfold Upload.arrive
  split
  · rename_i hcarried
    have hserved := h.serve hroot hcarried.2 (h.suits _ hcarried.1 (hpunctual hcarried.1))
      arrival.stop
    have hlate : s.late.erase arrival.late ⊆ s.late := List.erase_subset
    exact ⟨hserved.1.with_late hlate, rfl, rfl, hlate, hserved.2⟩
  · exact ⟨h, Since.refl s⟩

/-- Punctual arrivals keep the invariant. -/
theorem Proven.arrivals (h : Proven spec old before chunks s) (hroot : root.downloads = false)
    {arrivals : List Arrival} (hpunctual : s.AllPunctual arrivals) :
    Proven spec old before chunks (run (Upload.arrive root) s arrivals) ∧
      Since s (run (Upload.arrive root) s arrivals) := by
  induction arrivals generalizing s with
  | nil => exact ⟨h, Since.refl s⟩
  | cons arrival arrivals ih =>
    obtain ⟨harrived, hsince⟩ := h.arrive hroot (hpunctual arrival List.mem_cons_self)
    have hrest : s.AllPunctual arrivals := fun other hother =>
      hpunctual other (List.mem_cons_of_mem arrival hother)
    obtain ⟨hall, hsince'⟩ := ih harrived (hrest.since hsince)
    exact ⟨hall, hsince.trans hsince'⟩

/-- What an answer says. -/
theorem answered_eq_ok (h : s.answered root request call = (t, .ok reply)) :
    Node.Fresh s.node call.kernel ∧
      (Node.dispatch call.kernel root request s.node).result = .ok reply ∧
        t = { s with node := cut (Node.dispatch call.kernel root request) s.node none } := by
  unfold answered at h
  split at h
  · cases h
  split at h
  · rename_i hfresh
    obtain ⟨rfl, hreply⟩ := Prod.mk.inj h
    split at hreply
    · rename_i hstop
      rw [hstop]
      refine ⟨hfresh, ?_, rfl⟩
      cases hresult : (Node.dispatch call.kernel root request s.node).result with
      | ok record => rw [hresult] at hreply; exact congrArg _ (Except.ok.inj hreply)
      | error e => rw [hresult] at hreply; cases hreply
    · cases hreply
  · cases h

/-- A call. -/
theorem Proven.exchange (h : Proven spec old before chunks s) (hroot : root.downloads = false)
    (hpunctual : s.AllPunctual call.arrivals) {answer : Except Failure Record}
    (hcall : s.exchange root request call = (t, answer))
    (hsuits : Suits spec (chunks s.session) s request) :
    Proven spec old before chunks t ∧ t.item = s.item ∧ t.session = s.session ∧
      ∀ reply, answer = .ok reply → Since s t := by
  obtain ⟨harrived, hsince⟩ := h.arrivals hroot hpunctual
  have hsuits' := hsuits.mono (List.Subset.refl _) hsince.accepted fun hnot hnow =>
    hnot (hsince.item ▸ hnow)
  rw [← hsince.session] at hsuits'
  unfold Upload.exchange answered at hcall
  split at hcall
  · obtain ⟨rfl, rfl⟩ := Prod.mk.inj hcall
    exact ⟨harrived.outlived hsuits', hsince.item, hsince.session, fun _ heq => by cases heq⟩
  split at hcall
  · rename_i hfresh
    obtain ⟨rfl, -⟩ := Prod.mk.inj hcall
    obtain ⟨hserved, hgrown⟩ := harrived.serve hroot hfresh hsuits' call.stop
    exact ⟨hserved, hsince.item, hsince.session, fun _ _ =>
      ⟨hsince.item, hsince.session, hsince.late, hsince.accepted.trans hgrown⟩⟩
  · obtain ⟨rfl, rfl⟩ := Prod.mk.inj hcall
    exact ⟨harrived, hsince.item, hsince.session, fun _ heq => by cases heq⟩

/-- What an answered chunk shows. -/
theorem Proven.written (h : Proven spec old before chunks s) (hroot : root.downloads = false)
    {offset : ℕ} {bytes : Bytes} {digest : Option Digest} (hpunctual : s.AllPunctual call.arrivals)
    (hcall : s.exchange root (.write offset bytes digest) call = (t, .ok reply))
    (hsent : (offset, bytes) ∈ chunks s.session) (hpending : Pending s.item)
    (hoffset : offset = s.item.replayOffset) :
    Covers (chunks s.session) t.node.accepted (offset + bytes.length) := by
  obtain ⟨harrived, hsince⟩ := h.arrivals hroot hpunctual
  obtain ⟨hfresh, hresult, rfl⟩ := answered_eq_ok hcall
  have hlt : s.item.replayOffset < s.item.replayUntil := hpending
  have huntil := harrived.pending (hsince.item ▸ hpending)
  rw [hsince.item] at huntil
  obtain ⟨hchunk, ⟨-, hsame, hheld⟩ | ⟨hlast, -⟩⟩ :=
    result_of_wp (harrived.known.wp_write harrived.whole hfresh offset bytes digest) hresult
  · have hcovered := harrived.covered
    rw [verified, hsince.item, if_pos hpending, ← hoffset, hsince.session] at hcovered
    change Covers (chunks s.session) (cut _ _ none : Node).accepted _
    rw [hheld.accepted_eq]
    refine hcovered.next hchunk.aligned ?_ (hchunk.length.trans_le (min_le_left _ _))
    rwa [hchunk.pread_eq harrived.whole.1 hsame]
  · -- The controller does not wait for a chunk behind the accepted bytes.
    omega


omit [Hash (Root × Spec)] in
/-- The controller counts a chunk that has been sent again. -/
theorem Proven.count (h : Proven spec old before chunks s) (hpending : Pending s.item) {length : ℕ}
    (hcovers : Covers (chunks s.session) s.node.accepted length) (hspec : item.spec = s.item.spec)
    (hoffset : item.replayOffset = length) (huntil : item.replayUntil = s.item.replayUntil) :
    Proven spec old before chunks { s with item } :=
  { h with
    spec_eq := hspec.trans h.spec_eq
    pending := fun _ => huntil.trans (h.pending hpending)
    covered := by
      change Covers (chunks s.session) s.node.accepted
        (if item.replayOffset < item.replayUntil then item.replayOffset else s.node.accepted.length)
      rw [hoffset, huntil, h.pending hpending]
      split
      · exact hcovers
      · rename_i hall
        exact fun offset haligned hlt => hcovers offset haligned (by omega)
    suits := suits_late h.suits (List.Subset.refl _) rfl (List.Subset.refl _) le_rfl
      fun hnot => absurd hpending hnot }

omit [Hashing] [Hash (Root × Spec)] in
theorem allPunctual_append {first second : List Arrival} :
    s.AllPunctual (first ++ second) ↔ s.AllPunctual first ∧ s.AllPunctual second :=
  List.forall_mem_append

/-- So does a chunk of the client. -/
theorem Proven.upload (h : Proven spec old before chunks s) (hroot : root.downloads = false)
    {offset : ℕ} {bytes : Bytes} {digest : Option Digest} {written : Call}
    (hsent : (offset, bytes) ∈ chunks s.session)
    (hpunctual : s.AllPunctual (begun.arrivals ++ written.arrivals)) :
    Proven spec old before chunks (s.upload root offset bytes digest begun written).1 := by
  obtain ⟨hbefore, hafter⟩ := allPunctual_append.mp hpunctual
  unfold Upload.upload
  dsimp only
  split
  · exact h
  split
  · exact h
  rename_i hallowed
  split
  · rename_i t e hbegun
    exact (h.exchange hroot hbefore hbegun h.spec_eq).1
  rename_i t record hbegun
  obtain ⟨ht, hitem, hsession, hanswered⟩ := h.exchange hroot hbefore hbegun h.spec_eq
  have hpunctual' := hafter.since (hanswered record rfl)
  have hsuits : Suits spec (chunks t.session) t (.write offset bytes digest) := by
    by_cases hpending : Pending t.item
    · -- While the controller waits, it lets only chunks through that were accepted before.
      have huntil := ht.pending hpending
      rw [Pending, hitem] at hpending
      rw [hitem] at huntil
      have hle : offset ≤ s.item.replayOffset := not_lt.mp fun hlt => hallowed ⟨hpending, hlt⟩
      exact .inl (huntil ▸ hle.trans_lt hpending)
    · exact .inr ⟨hsession ▸ hsent, hpending⟩
  split
  · rename_i u e hwritten
    exact (ht.exchange hroot hpunctual' hwritten hsuits).1
  rename_i u result hwritten
  obtain ⟨hu, huitem, husession, -⟩ := ht.exchange hroot hpunctual' hwritten hsuits
  have hsame : u.item = s.item := huitem.trans hitem
  by_cases hreplay : s.item.replayOffset < s.item.replayUntil ∧ offset = s.item.replayOffset
  · rw [if_pos hreplay]
    have hpending : Pending t.item := hitem ▸ hreplay.1
    have hcovers := ht.written hroot hpunctual' hwritten (hsession ▸ hsent) hpending
      (hitem ▸ hreplay.2)
    rw [← husession] at hcovers
    refine hu.count (huitem ▸ hpending) hcovers ?_ ?_ ?_
    · rw [hsame]
    · rw [hreplay.2]
    · rw [hsame]
  · rw [if_neg hreplay]
    refine hu.with_item ?_ ?_ ?_ <;> rw [hsame]

/-! ### The other actions -/

omit [Hashing] [Hash (Root × Spec)] in
/-- An interruption leaves the verification as it is. -/
theorem interrupted_same (item : Item) (e : Failure) :
    (interrupted item e).spec = item.spec ∧
      (interrupted item e).replayOffset = item.replayOffset ∧
        (interrupted item e).replayUntil = item.replayUntil := by
  cases e with
  | failure code =>
    unfold interrupted
    dsimp only
    split <;> exact ⟨rfl, rfl, rfl⟩
  | crashed => exact ⟨rfl, rfl, rfl⟩

omit [Hash (Root × Spec)] in
/-- A failure is recorded. -/
theorem Proven.interrupted (h : Proven spec old before chunks s) (hspec : item.spec = s.item.spec)
    (hoffset : item.replayOffset = s.item.replayOffset)
    (huntil : item.replayUntil = s.item.replayUntil) (e : Failure) :
    Proven spec old before chunks { s with item := Upload.interrupted item e } :=
  have ⟨hspec', hoffset', huntil'⟩ := interrupted_same item e
  h.with_item (hspec'.trans hspec) (hoffset'.trans hoffset) (huntil'.trans huntil)

/-- Whatever becomes of a commit, the accepted bytes stay. -/
theorem Proven.publish (h : Proven spec old before chunks s) (hroot : root.downloads = false)
    (hpunctual : s.AllPunctual committed.arrivals) :
    Proven spec old before chunks (s.publish root committed).1 := by
  have hitem : Proven spec old before chunks
      { s with item := { s.item with state := .of .committing } } := h.with_item rfl rfl rfl
  unfold Upload.publish
  dsimp only
  split
  · rename_i t e hcommitted
    obtain ⟨ht, hsame, -⟩ := hitem.exchange hroot hpunctual hcommitted trivial
    refine ht.interrupted ?_ ?_ ?_ e <;> rw [hsame]
  rename_i t result hcommitted
  obtain ⟨ht, hsame, -⟩ := hitem.exchange hroot hpunctual hcommitted trivial
  split
  · refine ht.interrupted ?_ ?_ ?_ _ <;> rw [hsame]
  · refine ht.with_item ?_ ?_ ?_ <;> rw [hsame]

/-- So does the end of the upload. -/
theorem Proven.finish (h : Proven spec old before chunks s) (hroot : root.downloads = false)
    {verified : Call} {allowed : Bool}
    (hpunctual : s.AllPunctual (begun.arrivals ++ verified.arrivals ++ committed.arrivals)) :
    Proven spec old before chunks (s.finish root begun verified committed allowed).1 := by
  obtain ⟨hrest, hlast⟩ := allPunctual_append.mp hpunctual
  obtain ⟨hfirst, hsecond⟩ := allPunctual_append.mp hrest
  unfold Upload.finish
  dsimp only
  split
  · exact h
  split
  · exact h
  split
  · exact h
  split
  · rename_i t e hbegun
    obtain ⟨ht, hitem, -⟩ := h.exchange hroot hfirst hbegun h.spec_eq
    refine ht.interrupted ?_ ?_ ?_ e <;> rw [hitem]
  rename_i t record hbegun
  obtain ⟨ht, hitem, -, hanswered⟩ := h.exchange hroot hfirst hbegun h.spec_eq
  have hsince := hanswered record rfl
  split
  · rename_i u e hverified
    obtain ⟨hu, huitem, -⟩ := ht.exchange hroot (hsecond.since hsince) hverified trivial
    refine hu.interrupted ?_ ?_ ?_ e <;> rw [huitem, hitem]
  rename_i u result hverified
  obtain ⟨hu, huitem, -, hanswered'⟩ :=
    ht.exchange hroot (hsecond.since hsince) hverified trivial
  have hsame : u.item = s.item := huitem.trans hitem
  split
  · exact hu
  split
  · refine hu.interrupted ?_ ?_ ?_ _ <;> rw [hsame]
  · have hnext : Proven spec old before chunks { u with item := { s.item with
        sha256 := result.prefixSha256, offset := result.offset } } := by
      refine hu.with_item ?_ ?_ ?_ <;> rw [hsame]
    have hpunctual' : u.AllPunctual committed.arrivals :=
      hlast.since (hsince.trans (hanswered' result rfl))
    exact hnext.publish hroot hpunctual'

omit [Hash (Root × Spec)] in
/-- After an answered resumption the controller waits for all of the accepted prefix. -/
theorem Proven.reset (h : Proven spec old before chunks s) (hspec : item.spec = s.item.spec)
    (hoffset : item.replayOffset = 0) (huntil : item.replayUntil = s.node.accepted.length) :
    Proven spec old before chunks { s with item, session := s.session + 1 } :=
  { h with
    spec_eq := hspec.trans h.spec_eq
    pending := fun _ => huntil
    covered := by
      change Covers _ s.node.accepted
        (if item.replayOffset < item.replayUntil then item.replayOffset else s.node.accepted.length)
      rw [hoffset, huntil]
      split
      · exact covers_zero _ s.node.accepted
      · rename_i hempty
        rw [Nat.eq_zero_of_not_pos hempty]
        exact covers_zero _ s.node.accepted
    earlier := fun late hlate => (h.earlier late hlate).trans (Nat.le_succ _)
    suits := by
      -- A late chunk of an earlier session is punctual only before the end of the accepted bytes.
      rintro ⟨session, request⟩ hlate hpunctual
      cases request with
      | write offset bytes digest =>
        obtain hnow | hbefore : session = s.session + 1 ∨ offset < s.node.accepted.length := hpunctual
        · have hle : session ≤ s.session := h.earlier _ hlate
          omega
        · exact .inl hbefore
      | start other preparing limits => exact h.suits _ hlate trivial
      | _ => trivial }

/-- What an answered resumption shows. -/
theorem Proven.resumed (h : Proven spec old before chunks s) (hroot : root.downloads = false)
    (hpunctual : s.AllPunctual call.arrivals)
    (hcall : s.exchange root .resume call = (t, .ok reply)) :
    t.node.record = some reply ∧ reply.state = .running ∧
      t.node.accepted.length = reply.offset := by
  obtain ⟨harrived, -⟩ := h.arrivals hroot hpunctual
  obtain ⟨hfresh, hresult, rfl⟩ := answered_eq_ok hcall
  exact result_of_wp (harrived.known.wp_resume hfresh) hresult

/-- So does a resumption or a cancellation. -/
theorem Proven.restart (h : Proven spec old before chunks s) (hroot : root.downloads = false)
    {resume : Bool} (hpunctual : s.AllPunctual (begun.arrivals ++ changed.arrivals)) :
    Proven spec old before chunks (s.restart root resume discard begun changed).1 := by
  obtain ⟨hfirst, hsecond⟩ := allPunctual_append.mp hpunctual
  unfold Upload.restart
  dsimp only
  split
  · exact h
  split
  · rename_i t e hbegun
    exact (h.exchange hroot hfirst hbegun h.spec_eq).1
  rename_i t record hbegun
  obtain ⟨ht, hitem, -, hanswered⟩ := h.exchange hroot hfirst hbegun h.spec_eq
  have hpunctual' := hsecond.since (hanswered record rfl)
  have hsuits : Suits spec (chunks t.session) t (if resume then .resume else .cancel discard) := by
    cases resume <;> trivial
  split
  · rename_i u e hchanged
    exact (ht.exchange hroot hpunctual' hchanged hsuits).1
  rename_i u result hchanged
  obtain ⟨hu, huitem, -⟩ := ht.exchange hroot hpunctual' hchanged hsuits
  have hsame : u.item = s.item := huitem.trans hitem
  split
  · refine hu.with_item ?_ ?_ ?_ <;> rw [hsame]
  cases resume with
  | true =>
    obtain ⟨-, -, hlength⟩ := ht.resumed hroot hpunctual' hchanged
    rw [if_pos rfl]
    refine hu.reset ?_ rfl hlength.symm
    rw [hsame]
  | false =>
    rw [if_neg Bool.false_ne_true]
    refine hu.with_item ?_ ?_ ?_ <;> rw [hsame]

/-- So does a reconciliation. -/
theorem Proven.reconcile (h : Proven spec old before chunks s) (hroot : root.downloads = false)
    {looked : Call} (hpunctual : s.AllPunctual (looked.arrivals ++ committed.arrivals))
    {answer : Except Failure Record} (hcall : s.reconcile root looked committed = (t, answer)) :
    Proven spec old before chunks t ∧ t.item = s.item ∧ ∀ reply, answer = .ok reply → Since s t := by
  obtain ⟨hfirst, hsecond⟩ := allPunctual_append.mp hpunctual
  unfold Upload.reconcile at hcall
  split at hcall
  · rename_i u e hlooked
    obtain ⟨rfl, rfl⟩ := Prod.mk.inj hcall
    obtain ⟨hu, hitem, -⟩ := h.exchange hroot hfirst hlooked trivial
    exact ⟨hu, hitem, fun _ heq => by cases heq⟩
  rename_i u status hlooked
  obtain ⟨hu, hitem, -, hanswered⟩ := h.exchange hroot hfirst hlooked trivial
  have hsince := hanswered status rfl
  split at hcall
  · obtain ⟨ht, htitem, -, hanswered'⟩ :=
      hu.exchange hroot (hsecond.since hsince) hcall trivial
    exact ⟨ht, htitem.trans hitem, fun reply hreply => hsince.trans (hanswered' reply hreply)⟩
  · obtain ⟨rfl, rfl⟩ := Prod.mk.inj hcall
    exact ⟨hu, hitem, fun _ _ => hsince⟩

/-- So does a request for one of these. -/
theorem Proven.change (h : Proven spec old before chunks s) (hroot : root.downloads = false)
    {resume : Bool} {looked : Call}
    (hpunctual : s.AllPunctual (looked.arrivals ++ committed.arrivals ++ begun.arrivals ++ changed.arrivals))
    :
    Proven spec old before chunks
      (s.change root resume discard looked committed begun changed).1 := by
  rw [List.append_assoc] at hpunctual
  obtain ⟨hlook, hrest⟩ := allPunctual_append.mp hpunctual
  obtain ⟨-, hlast⟩ := allPunctual_append.mp hrest
  unfold Upload.change
  dsimp only
  split
  · split
    · rename_i t e hchanged
      exact (h.exchange hroot hlast hchanged trivial).1
    · rename_i t result hchanged
      obtain ⟨ht, hitem, -⟩ := h.exchange hroot hlast hchanged trivial
      refine ht.with_item ?_ ?_ ?_ <;> rw [hitem]
  split
  · exact h
  split
  · split
    · exact h
    split
    · rename_i t e hlooked
      exact (h.reconcile hroot hlook hlooked).1
    · rename_i t status hlooked
      obtain ⟨ht, hitem, hanswered⟩ := h.reconcile hroot hlook hlooked
      split
      · refine ht.with_item ?_ ?_ ?_ <;> rw [hitem]
      split
      · exact ht
      split
      · refine ht.with_item ?_ ?_ ?_ <;> rw [hitem]
      · exact ht.restart hroot (hrest.since (hanswered status rfl))
  · exact h.restart hroot hrest

/-- Every action keeps the invariant, with the chunks that it sends. -/
theorem Proven.step (h : Proven spec old before chunks s) (hroot : root.downloads = false)
    {action : Action} (htimely : Timely s action) :
    Proven spec old before
      (fun session => chunks session ++ if s.session = session then sends action else [])
      (s.step root action) := by
  have hmore : Proven spec old before
      (fun session => chunks session ++ if s.session = session then sends action else []) s :=
    h.more fun session => List.subset_append_left _ _
  cases action with
  | upload offset data digest begun written =>
    refine hmore.upload hroot ?_ htimely
    rw [if_pos rfl]
    exact List.mem_append_right _ (List.mem_singleton_self _)
  | finish begun verified committed allowed => exact hmore.finish hroot htimely
  | change resume discard looked committed begun changed => exact hmore.change hroot htimely
  | poll => exact hmore.with_item rfl rfl rfl
  | arrive arrival => exact (hmore.arrive hroot (htimely arrival (List.mem_singleton_self _))).1

/-- A timely run keeps the invariant. -/
theorem Proven.run (h : Proven spec old before chunks s) (hroot : root.downloads = false)
    {actions : List Action} (htimely : Along (Upload.step root) Timely s actions) :
    Proven spec old before (fun session => chunks session ++ sentIn root session s actions)
      (run (Upload.step root) s actions) := by
  induction actions generalizing s chunks with
  | nil => exact h.more fun session => List.subset_append_left _ _
  | cons action actions ih =>
    refine (ih (h.step hroot htimely.1) htimely.2).more fun session => ?_
    rw [sentIn, List.append_assoc]
    exact List.Subset.refl _

/-- A run without late requests is timely. -/
theorem timely_of_arrivals {actions : List Action} (s : Upload)
    (h : ∀ action ∈ actions, action.arrivals = []) : Along (step root) Timely s actions := by
  induction actions generalizing s with
  | nil => trivial
  | cons action actions ih =>
    refine ⟨?_, ih _ fun other hother => h other (List.mem_cons_of_mem _ hother)⟩
    rw [Timely, h action List.mem_cons_self]
    exact fun _ hnone => absurd hnone List.not_mem_nil

omit [Hash (Root × Spec)] in
/-- A new item satisfies it. -/
theorem proven_submitted (spec : Spec) (old : Option File) :
    Proven spec old [] (fun _ => []) (submitted spec old) where
  spec_eq := rfl
  known := ⟨.absent rfl rfl rfl rfl, rfl, fun _ hrecord => by cases hrecord⟩
  whole := ⟨Nat.zero_le _, .inl (Nat.zero_mod CHUNK)⟩
  whole_before := ⟨Nat.zero_le _, .inl (Nat.zero_mod CHUNK)⟩
  extends_before := List.nil_prefix
  pending h := absurd h (lt_irrefl _)
  covered := covers_zero _ _
  settled := .inl rfl
  earlier _ hlate := absurd hlate List.not_mem_nil
  suits _ hlate := absurd hlate List.not_mem_nil

/-- What a resumption leaves behind. -/
structure Reopened (s : Upload) : Prop where
  offset : s.item.replayOffset = 0
  until_eq : s.item.replayUntil = s.node.accepted.length
  record : ∃ record, s.node.record = some record ∧ record.state = .running
  earlier : ∀ late ∈ s.late, late.session < s.session

theorem Proven.reopened_restart (h : Proven spec old before chunks s)
    (hroot : root.downloads = false)
    (hpunctual : s.AllPunctual (begun.arrivals ++ changed.arrivals))
    (hnone : (s.restart root true discard begun changed).2 = none) :
    Reopened (s.restart root true discard begun changed).1 := by
  obtain ⟨hfirst, hsecond⟩ := allPunctual_append.mp hpunctual
  revert hnone
  unfold Upload.restart
  dsimp only
  split
  · exact nofun
  split
  · exact nofun
  rename_i t record hbegun
  obtain ⟨ht, -, -, hanswered⟩ := h.exchange hroot hfirst hbegun h.spec_eq
  have hpunctual' := hsecond.since (hanswered record rfl)
  split
  · exact nofun
  rename_i u result hchanged
  rw [if_pos rfl] at hchanged
  obtain ⟨hrecord, hstate, hlength⟩ := ht.resumed hroot hpunctual' hchanged
  obtain ⟨hu, -⟩ := ht.exchange hroot hpunctual' hchanged trivial
  split
  · exact nofun
  · exact fun _ => ⟨rfl, hlength.symm, ⟨result, hrecord, hstate⟩,
      fun late hlate => Nat.lt_succ_of_le (hu.earlier late hlate)⟩

/-- After an answered resumption the verification starts again. -/
theorem Proven.reopened (h : Proven spec old before chunks s) (hroot : root.downloads = false)
    {action : Action} (htimely : Timely s action) (hresumes : Resumes root s action) :
    Reopened (s.step root action) := by
  obtain ⟨⟨discard, looked, committed, begun, changed, rfl⟩, hnone, hstate⟩ := hresumes
  change s.AllPunctual (looked.arrivals ++ committed.arrivals ++ begun.arrivals ++ changed.arrivals)
    at htimely
  rw [List.append_assoc] at htimely
  obtain ⟨hlook, hrest⟩ := allPunctual_append.mp htimely
  change (s.change root true discard looked committed begun changed).2 = none at hnone
  change (s.change root true discard looked committed begun changed).1.item.state = _ at hstate
  change Reopened (s.change root true discard looked committed begun changed).1
  revert hnone hstate
  unfold Upload.change
  dsimp only
  split
  · rename_i hcancel
    exact absurd hcancel.2.2.2 (by decide)
  split
  · rename_i hover
    intro _ hstate
    rw [hstate] at hover
    exact absurd hover (by decide)
  split
  · rw [if_neg (by decide)]
    split
    · exact nofun
    rename_i t status hlooked
    obtain ⟨ht, -, hanswered⟩ := h.reconcile hroot hlook hlooked
    split
    · exact nofun
    split
    · exact nofun
    split
    · exact nofun
    · exact fun hnone _ => ht.reopened_restart hroot (hrest.since (hanswered status rfl)) hnone
  · exact fun hnone _ => h.reopened_restart hroot hrest hnone

omit [Hash (Root × Spec)] in
/-- A resumption begins a new account of what has been sent. -/
theorem Proven.anew (h : Proven spec old before chunks s) (hreopened : Reopened s) :
    Proven spec old s.node.accepted (fun _ => []) s :=
  { h with
    whole_before := h.whole
    extends_before := List.prefix_rfl
    pending := fun _ => hreopened.until_eq
    covered := by
      rw [verified, hreopened.offset]
      split
      · exact covers_zero _ _
      · rename_i hpending
        rw [Pending, hreopened.offset, hreopened.until_eq] at hpending
        rw [Nat.eq_zero_of_not_pos hpending]
        exact covers_zero _ _
    settled := .inl rfl
    suits := by
      rintro ⟨session, request⟩ hlate hpunctual
      cases request with
      | write offset bytes digest =>
        obtain hnow | hbefore : session = s.session ∨ offset < s.node.accepted.length := hpunctual
        · exact absurd hnow (hreopened.earlier _ hlate).ne
        · exact .inl hbefore
      | start other preparing limits => exact h.suits _ hlate trivial
      | _ => trivial }

end Proof

/-- In every run whose late chunks are all timely, the node has a partial file that starts with the
accepted bytes after every answered resumption, and it accepts further bytes only when the client has
sent each chunk of that prefix again in one session. A file that is published consists of chunks that
the client has sent in one session, so it is the client's file when these are the chunks of one. -/
theorem resume_proves_prefix (root : Root) (hroot : root.downloads = false) (spec : Spec)
    (old : Option File) (actions : List Action)
    (htimely : Along (step root) Timely (submitted spec old) actions) :
    (∀ past resumption later, actions = past ++ resumption :: later →
      Resumes root (run (step root) (submitted spec old) past) resumption →
      let s := run (step root) (submitted spec old) (past ++ [resumption])
      ∃ record partialFile, s.node.record = some record ∧ s.node.data = some partialFile ∧
        partialFile.content.take record.offset = s.node.accepted ∧
        s.node.accepted.length = record.offset ∧ s.node.destination = old ∧
        ∀ after, (run (step root) s later).node.record = some after →
          record.offset < after.offset →
            ∃ session, Covers (sentIn root session s later) s.node.accepted record.offset) ∧
    let t := run (step root) (submitted spec old) actions
    let sent session := sentIn root session (submitted spec old) actions
    t.node.destination ≠ old → ∃ file session, t.node.destination = some file ∧
      file.content.length = spec.size ∧ Covers (sent session) file.content spec.size ∧
        ∀ client : Bytes, client.length = spec.size →
          (∀ chunk ∈ sent session, chunk.2 = pread client chunk.2.length chunk.1) →
          file.content = client := by
  refine ⟨?_, ?_⟩
  · rintro past resumption later rfl hresumes s
    obtain ⟨hpast, hresumption, hlater⟩ := along_append.mp htimely
    have hs : s = Upload.step root (run (step root) (submitted spec old) past) resumption := by
      simp only [s, run_append, run_cons, run_nil]
    have hbefore := (proven_submitted spec old).run hroot hpast
    have hreopened : Reopened s := hs ▸ hbefore.reopened hroot hresumption hresumes
    have hproven : Proven spec old s.node.accepted (fun _ => []) s := by
      have hstep := hbefore.step hroot hresumption
      rw [← hs] at hstep
      exact hstep.anew hreopened
    obtain ⟨record, hrecord, hstate⟩ := hreopened.record
    have hkept := hproven.known.sound.kept_of_record hrecord
    obtain ⟨partialFile, hfilling⟩ := hkept.filling hstate
    refine ⟨record, partialFile, hrecord, hfilling.data, hfilling.content, hkept.length,
      hfilling.destination, fun after hafter hlt => ?_⟩
    have ht := hproven.run hroot (hs ▸ hlater)
    have hlength := (ht.known.sound.kept_of_record hafter).length
    have hgrown : s.node.accepted.length < (run (step root) s later).node.accepted.length := by
      rw [hkept.length, hlength]
      exact hlt
    -- Something has been accepted since, and a session covers all of it.
    obtain hsame | ⟨session, hcovers⟩ := ht.settled
    · rw [hsame] at hgrown
      exact absurd hgrown (lt_irrefl _)
    · refine ⟨session, ?_⟩
      rw [← hkept.length]
      exact hcovers.prefix ht.extends_before ht.whole_before ht.whole.1
  · intro t sent hne
    have ht := (proven_submitted spec old).run hroot htimely
    obtain ⟨file, stored, hdestination, hstored, hcontent, hlength⟩ :=
      ht.known.sound.destination_eq.resolve_left hne
    have hlen : file.content.length = spec.size := by
      rw [hcontent, hlength, (ht.known.held.record stored hstored).1]
    obtain ⟨session, hcovers⟩ : ∃ session,
        Covers (sent session) t.node.accepted t.node.accepted.length := by
      obtain hnone | hcovers := ht.settled
      · exact ⟨0, hnone ▸ covers_zero _ _⟩
      · exact hcovers
    rw [← hcontent] at hcovers
    refine ⟨file, session, hdestination, hlen, hlen ▸ hcovers, fun client hclient hchunks => ?_⟩
    exact eq_of_covers hcovers (hclient.trans hlen.symm) hchunks

end Upload

namespace Upload.Example

attribute [local instance] Node.Example.hashing Node.Example.signatures

/-- The first chunk of a file of two. -/
@[irreducible]
def zeros : Bytes := List.replicate CHUNK 0

/-- The file goes on with one byte more. -/
def spec : Spec :=
  { size := CHUNK + 1, expected := none, text := "name"
    sourceManifest := some ⟨.sha256, Hashing.sha256 (zeros ++ [7])⟩ }

/-- A call that is answered. -/
def call (inode : ℕ) : Call :=
  { kernel := { Node.Example.kernel with inode }, limits := Node.Example.limits, stop := none
    answer := .received, outlived := false, arrivals := [] }

/-- The client sends a chunk. -/
def chunk (offset : ℕ) (data : Bytes) (begun written : Call) : Action :=
  .upload offset data (some (Hashing.sha256 data)) begun written

/-- The client interrupts its upload. -/
def interruption : Action := .change false false (call 3) (call 3) (call 3) (call 3)

/-- The client resumes its upload. -/
def resumption : Action := .change true false (call 3) (call 3) (call 3) (call 3)

theorem step_chunk (s : Upload) (offset : ℕ) (data : Bytes) (begun written : Call) :
    s.step Node.Example.directory (chunk offset data begun written) =
      (s.upload Node.Example.directory offset data (some (Hashing.sha256 data)) begun written).1 :=
  rfl

theorem step_interruption (s : Upload) : s.step Node.Example.directory interruption =
    (s.change Node.Example.directory false false (call 3) (call 3) (call 3) (call 3)).1 :=
  rfl

theorem perform_resumption (s : Upload) : s.perform Node.Example.directory resumption =
    s.change Node.Example.directory true false (call 3) (call 3) (call 3) (call 3) :=
  rfl

theorem length_zeros : zeros.length = CHUNK := by rw [zeros, List.length_replicate]

/-- The first chunk is a whole one. -/
theorem length_zeros_eq_min : zeros.length = min CHUNK (spec.size - 0) := by
  rw [length_zeros, Nat.sub_zero]
  exact (min_eq_left (Nat.le_succ CHUNK)).symm

theorem zeros_ne_nil : zeros ≠ [] := List.ne_nil_of_length_pos (by rw [length_zeros]; decide)

theorem answered_call (inode : ℕ) : Answered (call inode) := ⟨rfl, rfl, rfl, rfl⟩

theorem roomy : Node.Roomy Node.Example.directory spec (call 2).limits (call 2).kernel where
  size := (by decide : CHUNK + 1 ≤ MAX_FILE)
  nonempty := Nat.succ_pos CHUNK
  expected := rfl
  count := (by decide : 0 < 64)
  quota := rfl
  records := (by decide : 0 < 4096)
  writable := rfl
  room := (by decide : CHUNK + 1 + journalBytes (CHUNK + 1) + 0 ≤ 2 ^ 40)

/-- The node has received the bytes, and the client has proved to have the first ones. -/
structure Holds (bytes : Bytes) (chunks : List Digest) (replayed replayUntil : ℕ) (s : Upload) :
    Prop where
  spec_eq : s.item.spec = spec
  state : s.item.state = .of .running
  replayed : s.item.replayOffset = replayed
  until_eq : s.item.replayUntil = replayUntil
  receives : Receives Node.Example.directory spec 2 bytes chunks .running s.node

variable {bytes data after : Bytes} {chunks journal : List Digest} {replayed replayUntil : ℕ}
  {s : Upload}

/-- Every call finds the transfer. -/
theorem Holds.begins (h : Holds bytes chunks replayed replayUntil s) (preparing : Bool) :
    Begins Node.Example.directory spec 2 bytes chunks .running preparing (call 3) s :=
  h.receives.begins roomy.size (answered_call 3) (by decide) preparing

/-- The client sends a chunk that the node takes. -/
theorem Holds.chunk (h : Holds bytes chunks replayed replayUntil s) (offset : ℕ)
    (hready : replayed < replayUntil → offset ≤ replayed)
    (hserves : ∀ record t, Node.Receiving Node.Example.directory spec 2 bytes chunks record t →
      record.state = .running → Node.Serves (Node.dispatch (call 3).kernel Node.Example.directory
        (.write offset data (some (Hashing.sha256 data)))) (fun reply t =>
          Node.Receiving Node.Example.directory spec 2 after journal reply t ∧
            reply.state = .running) t) :
    Holds after journal
      (if replayed < replayUntil ∧ offset = replayed then replayed + data.length else replayed)
      replayUntil (s.step Node.Example.directory (chunk offset data (call 3) (call 3))) := by
  obtain ⟨t, hstep, ht⟩ := (h.begins true).upload offset h.spec_eq (.inr h.state)
    (by rw [Pending, h.replayed, h.until_eq]; exact hready) (answered_call 3) (by decide) hserves
  rw [step_chunk, hstep]
  refine ⟨h.spec_eq, rfl, ?_, h.until_eq, ht⟩
  dsimp only
  rw [h.replayed, h.until_eq]

/-- The first chunk starts the transfer, in the first session. -/
theorem holds_first :
    Holds zeros [Hashing.sha256 zeros] 0 0
        ((submitted spec none).step Node.Example.directory (chunk 0 zeros (call 2) (call 3))) ∧
      ((submitted spec none).step Node.Example.directory
        (chunk 0 zeros (call 2) (call 3))).session = 0 := by
  have hserves : ∀ record t, Node.Receiving Node.Example.directory spec 2 [] [] record t →
      record.state = .running → Node.Serves (Node.dispatch (call 3).kernel Node.Example.directory
        (.write 0 zeros (some (Hashing.sha256 zeros)))) (fun reply t =>
          Node.Receiving Node.Example.directory spec 2 zeros [Hashing.sha256 zeros] reply t ∧
            reply.state = .running) t := by
    intro record t hreceiving hrunning
    have hnext := hreceiving.serves_next (call 3).kernel hrunning List.length_nil
      (Nat.zero_mod CHUNK) (Nat.zero_div CHUNK) length_zeros_eq_min zeros_ne_nil
    rwa [List.nil_append, List.nil_append] at hnext
  obtain ⟨t, hstep, ht⟩ := (begins_submitted roomy (answered_call 2)).upload 0 rfl (.inl rfl)
    (fun _ => le_rfl) (answered_call 3) (by decide) hserves
  rw [step_chunk, hstep]
  exact ⟨⟨rfl, rfl, rfl, rfl, ht⟩, rfl⟩

/-- The journal verifies the first chunk. -/
theorem readPrefix_zeros {record : Record} (hoffset : record.offset = zeros.length)
    (hsize : record.size = CHUNK + 1) :
    Node.readPrefix record zeros [Hashing.sha256 zeros] = .ok (Hashing.sha256 zeros) := by
  have hread : pread zeros CHUNK 0 = zeros := by
    rw [pread, List.drop_zero, List.take_of_length_le length_zeros.le]
  have hoffsets : Node.chunkOffsets CHUNK = [0] := by
    rw [Node.chunkOffsets_eq, show journalEntries CHUNK = 0 + 1 from by decide,
      Node.offsetsFrom_succ, Node.offsetsFrom_zero, Nat.zero_mul]
  rw [length_zeros] at hoffset
  simp [Node.readPrefix, hoffset, hoffsets, Node.verifyChunks, hread, length_zeros, hsize, raiseIf]

/-- The client interrupts its upload after the first chunk and resumes it. -/
theorem Holds.resumed (h : Holds zeros [Hashing.sha256 zeros] 0 0 s) :
    Resumes Node.Example.directory (s.step Node.Example.directory interruption) resumption ∧
      Holds zeros [Hashing.sha256 zeros] 0 CHUNK
        ((s.step Node.Example.directory interruption).step Node.Example.directory resumption) ∧
      ((s.step Node.Example.directory interruption).step Node.Example.directory
        resumption).late = s.late := by
  obtain ⟨node, hcancel, hnode⟩ := (h.begins false).cancel (call 3) (call 3) h.spec_eq
    (.inr h.state) (answered_call 3) (by decide)
  rw [step_interruption, hcancel]
  obtain ⟨node', hresume, hnode'⟩ := (Receives.begins (s := { s with
      item := { s.item with state := .of .interrupted, offset := zeros.length, error := none }
      node }) hnode roomy.size (answered_call 3) (by decide) true).resume false (call 3) (call 3)
        h.spec_eq rfl nofun (answered_call 3) (by decide) fun record t hreceiving hinterrupted =>
          hreceiving.serves_resume hinterrupted (by rw [length_zeros]; decide)
            (readPrefix_zeros hreceiving.offset hreceiving.size)
  have hperform := (perform_resumption _).trans hresume
  rw [Resumes, Upload.step, hperform]
  exact ⟨⟨⟨false, _, _, _, _, rfl⟩, rfl, rfl⟩, ⟨h.spec_eq, rfl, rfl, length_zeros, hnode'⟩, rfl⟩

/-- What the client sends after the resumption: the first chunk again, and the other one. -/
def completion : List Action :=
  [chunk 0 zeros (call 3) (call 3), chunk CHUNK [7] (call 3) (call 3)]

/-- The other chunk is next. -/
theorem serves_last {record : Record} {node : Node} (hreceiving : Node.Receiving
      Node.Example.directory spec 2 zeros [Hashing.sha256 zeros] record node)
    (hrunning : record.state = .running) : Node.Serves (Node.dispatch (call 3).kernel
      Node.Example.directory (.write CHUNK [7] (some (Hashing.sha256 [7])))) (fun reply t =>
        Node.Receiving Node.Example.directory spec 2 (zeros ++ [7])
          [Hashing.sha256 zeros, Hashing.sha256 [7]] reply t ∧ reply.state = .running) node := by
  have hlength : ([7] : Bytes).length = min CHUNK (spec.size - CHUNK) := by
    rw [show spec.size = CHUNK + 1 from rfl, Nat.add_sub_cancel_left]
    decide
  exact hreceiving.serves_next (call 3).kernel hrunning length_zeros (Nat.mod_self CHUNK)
    (Nat.div_self Node.CHUNK_pos) hlength nofun

/-- The first chunk is found the same. -/
theorem serves_zeros {record : Record} {node : Node} (hreceiving : Node.Receiving
      Node.Example.directory spec 2 zeros [Hashing.sha256 zeros] record node)
    (hrunning : record.state = .running) : Node.Serves (Node.dispatch (call 3).kernel
      Node.Example.directory (.write 0 zeros (some (Hashing.sha256 zeros)))) (fun reply t =>
        Node.Receiving Node.Example.directory spec 2 zeros [Hashing.sha256 zeros] reply t ∧
          reply.state = .running) node := by
  have hread : pread zeros zeros.length 0 = zeros := by
    rw [pread, List.drop_zero, List.take_length]
  have hpos : 0 < zeros.length := by
    rw [length_zeros]
    exact Node.CHUNK_pos
  have hentry : [Hashing.sha256 zeros][0 / CHUNK]? = some (Hashing.sha256 zeros) := by
    rw [Nat.zero_div]
    rfl
  refine wp_mono (hreceiving.serves_again hrunning (Nat.zero_mod CHUNK) hpos zeros_ne_nil
    length_zeros_eq_min hread hentry) ?_ (fun _ _ h => h) fun _ h => h
  rintro _ _ ⟨rfl, rfl⟩
  exact ⟨hreceiving, hrunning⟩

/-- The client sends the first chunk again, and the other one. -/
theorem Holds.completed (h : Holds zeros [Hashing.sha256 zeros] 0 CHUNK s) :
    Holds (zeros ++ [7]) [Hashing.sha256 zeros, Hashing.sha256 [7]] CHUNK CHUNK
      (run (step Node.Example.directory) s completion) := by
  have hagain := h.chunk 0 (fun _ => le_rfl) fun _ _ => serves_zeros
  rw [if_pos ⟨Node.CHUNK_pos, rfl⟩, length_zeros, Nat.zero_add] at hagain
  have hnext := hagain.chunk CHUNK (fun _ => le_rfl) fun _ _ => serves_last
  rw [if_neg fun hlt => absurd hlt.1 (lt_irrefl CHUNK)] at hnext
  rw [completion, run_cons, run_cons, run_nil]
  exact hnext

/-- An upload of two chunks is interrupted after the first one, and both are sent again. -/
theorem resume_proves_prefix_chunks :
    let s := run (step Node.Example.directory) (submitted spec none)
      [chunk 0 zeros (call 2) (call 3), interruption, resumption]
    s.node.accepted = zeros ∧
      (run (step Node.Example.directory) s completion).node.accepted = zeros ++ [7] ∧
      ∃ session, Covers (sentIn Node.Example.directory session s completion) zeros CHUNK := by
  obtain ⟨hresumes, hs, -⟩ := holds_first.1.resumed
  dsimp only
  rw [run_cons, run_cons, run_cons, run_nil]
  obtain ⟨record, hreceiving, -⟩ := hs.receives
  obtain ⟨after, hreceived, -⟩ := hs.completed.receives
  refine ⟨hreceiving.accepted, hreceived.accepted, ?_⟩
  have harrivals : ∀ action ∈ [chunk 0 zeros (call 2) (call 3), interruption] ++
      resumption :: completion, action.arrivals = [] := by
    simp [chunk, interruption, resumption, completion, call, Action.arrivals]
  have hproves := resume_proves_prefix Node.Example.directory rfl spec none _
    (timely_of_arrivals _ harrivals)
  have hprefix := hproves.1 _ _ _ rfl
  rw [run_append, run_cons, run_cons, run_nil, run_cons, run_nil] at hprefix
  obtain ⟨found, -, -, -, -, haccepted, -, hlater⟩ := hprefix hresumes
  have hoffset : found.offset = CHUNK := by rw [← haccepted, hreceiving.accepted, length_zeros]
  have hlt : found.offset < after.offset := by
    rw [hoffset, hreceived.offset, List.length_append, length_zeros]
    exact Nat.lt_succ_self CHUNK
  obtain ⟨session, hcovers⟩ := hlater after hreceived.record_eq hlt
  rw [hreceiving.accepted, hoffset] at hcovers
  exact ⟨session, hcovers⟩

/-- The other chunk, sent so that it outlives its call. -/
def outlived : Action := chunk CHUNK [7] (call 3) { call 3 with outlived := true }

/-- The request for it stays on the way. -/
theorem Holds.outlived (h : Holds zeros [Hashing.sha256 zeros] 0 0 s) :
    Holds zeros [Hashing.sha256 zeros] 0 0 (s.step Node.Example.directory outlived) ∧
      ⟨s.session, .write CHUNK [7] (some (Hashing.sha256 [7]))⟩ ∈
        (s.step Node.Example.directory Example.outlived).late := by
  have hpending : ¬Pending s.item := by
    rw [Pending, h.replayed, h.until_eq]
    exact lt_irrefl 0
  obtain ⟨node, hupload, hnode⟩ := (h.begins true).upload_outlived CHUNK [7]
    (some (Hashing.sha256 [7])) h.spec_eq (.inr h.state) (fun hwaits => absurd hwaits hpending)
    (show { call 3 with outlived := true }.arrivals = [] from rfl) rfl
  rw [Example.outlived, step_chunk, hupload]
  exact ⟨⟨h.spec_eq, h.state, h.replayed, h.until_eq, hnode⟩, List.mem_cons_self⟩

/-- A chunk that outlives its call arrives after the resumption. The node accepts it although the
client has sent nothing since. -/
theorem not_resume_proves_prefix_overtaken :
    let past := run (step Node.Example.directory) (submitted spec none)
      [chunk 0 zeros (call 2) (call 3), outlived, interruption]
    let s := past.step Node.Example.directory resumption
    let arrival : Arrival :=
      ⟨⟨0, .write CHUNK [7] (some (Hashing.sha256 [7]))⟩, (call 3).kernel, none⟩
    Resumes Node.Example.directory past resumption ∧ s.node.accepted = zeros ∧
      (∀ session, sentIn Node.Example.directory session s [.arrive arrival] = []) ∧
      (s.step Node.Example.directory (.arrive arrival)).node.accepted = zeros ++ [7] := by
  dsimp only
  rw [run_cons, run_cons, run_cons, run_nil]
  obtain ⟨hfirst, hsession⟩ := holds_first
  obtain ⟨hoverdue, hlate⟩ := hfirst.outlived
  obtain ⟨hresumes, hs, hkept⟩ := hoverdue.resumed
  rw [hsession, ← hkept] at hlate
  obtain ⟨record, hreceiving, hrunning⟩ := id hs.receives
  refine ⟨hresumes, hreceiving.accepted, fun session => by simp [sentIn, sends], ?_⟩
  obtain ⟨reply, after, harrive, hafter, -⟩ := arrive_eq_of_serves
    ⟨⟨0, .write CHUNK [7] (some (Hashing.sha256 [7]))⟩, (call 3).kernel, none⟩ hlate rfl
    (hs.receives.fresh (by decide)) (serves_last hreceiving hrunning)
  rw [Upload.step, Upload.perform, harrive]
  exact hafter.accepted

end Upload.Example

end Ficc.Transfers
