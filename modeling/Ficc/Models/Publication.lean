import Ficc.Foundations.Transition
import Ficc.Models.Cache

/-!
# Publication in the model cache

A blob is renamed from the unfinished object after its digest was compared, and from then on no
write extends it and no write takes it away (`wp_write`). So it keeps its digest through every stop
of the process. A loss of power is another matter: it takes away what was not synced. A write syncs
its data before the object becomes the blob, and the empty write that verifies retained bytes does
not. When those bytes were written by a call whose sync failed, or that was stopped before it, the
blob can be lost or damaged (`not_published`).

## Main results

* `publication_sound`: the cache in every run in which the power is lost only while the bytes of
  every blob are durable.
* `careful_of_verified`: this is so when every empty write finds bytes that are durable.
-/

namespace Ficc.Models

open Execution Durable

/-! ### What every operation keeps -/

/-- The blobs of one disk are still there in another. -/
def Keeps (start disk : Disk) : Prop :=
  ∀ digest i, start.now (digest, .blob) = some i →
    disk.now (digest, .blob) = some i ∧ disk.files i = start.files i

theorem Keeps.refl (disk : Disk) : Keeps disk disk := fun _ _ h => ⟨h, rfl⟩

variable {disk start : Disk} {item : File}

variable {contents : Contents} {calls : Calls} {data : Bytes}

/-- A file is the content behind its name. -/
theorem file_eq_some {p : Path} :
    disk.file p = some contents ↔ ∃ i, disk.now p = some i ∧ disk.files i = contents := by
  rw [Volume.file, Option.map_eq_some_iff]

theorem Keeps.file (h : Keeps start disk) {other : File}
    (hfile : start.file (path other .blob) = some contents) :
    disk.file (path other .blob) = some contents := by
  obtain ⟨i, hi, rfl⟩ := file_eq_some.mp hfile
  obtain ⟨hnow, hsame⟩ := h _ i hi
  exact file_eq_some.mpr ⟨i, hnow, hsame⟩


/-! ### What is reported -/

/-- Only a blob is reported complete. -/
theorem report_complete {suffix : Suffix} {found : Status}
    (h : report item suffix contents = .ok found) :
    (found.complete = true ↔ suffix = .blob) ∧
      (suffix = .blob → contents.bytes.length = item.bytes) := by
  simp only [report, unit_bind_eq_ok, raiseIf_eq_ok, not_and, not_not, Except.ok.injEq] at h
  obtain ⟨-, hsize, rfl⟩ := h
  exact ⟨decide_eq_true_iff, hsize⟩

/-- What is not reported complete has no blob. -/
theorem none_of_incomplete {found : Status} (h : status item disk disk disk = .ok found)
    (hcomplete : ¬found.complete = true) : disk.now (path item .blob) = none := by
  rw [status] at h
  cases hnow : disk.now (path item .blob) with
  | none => rfl
  | some i =>
    rw [Volume.file, hnow, Option.map_some] at h
    exact absurd ((report_complete h).1.mpr rfl) hcomplete

/-- A file is reported complete only when its blob has the length of the manifest. -/
theorem length_of_complete {first second third : Disk} {found : Status}
    (h : status item first second third = .ok found) (hcomplete : found.complete = true) :
    ∃ disk ∈ [first, third], ∃ contents, disk.file (path item .blob) = some contents ∧
      contents.bytes.length = item.bytes := by
  rw [status] at h
  split at h
  · next contents hfile =>
    exact ⟨first, by simp, contents, hfile, (report_complete h).2 rfl⟩
  · split at h
    · cases (report_complete h).1.mp hcomplete
    · split at h
      · next contents hfile =>
        exact ⟨third, by simp, contents, hfile, (report_complete h).2 rfl⟩
      · cases h
        cases hcomplete

/-! ### Blobs whose bytes are durable -/

/-- The bytes of every blob are durable, also of one that a loss of power may bring back. -/
def Settled (disk : Disk) : Prop :=
  ∀ names ∈ disk.images, ∀ digest i, names (digest, .blob) = some i →
    (disk.files i).durable = (disk.files i).bytes.length

/-- The bytes of the unfinished object of a file are durable. -/
def Synced (item : File) (disk : Disk) : Prop :=
  ∀ contents, disk.file (path item .unfinished) = some contents →
    contents.durable = contents.bytes.length

/-- An empty cache is settled. -/
theorem settled_empty : Settled Volume.empty := by
  intro names hnames digest i hi
  obtain rfl : names = fun _ => none := List.mem_singleton.mp hnames
  cases hi

theorem Settled.enter (h : Settled disk) {names : Names Path}
    (hblob : ∀ digest i, names (digest, .blob) = some i →
      (disk.files i).durable = (disk.files i).bytes.length) : Settled (disk.enter names) := by
  intro other hother digest i hi
  obtain rfl | hother := List.mem_cons.mp hother
  · exact hblob digest i hi
  · exact h other hother digest i hi

theorem Settled.unlink (h : Settled disk) (p : Path) : Settled (disk.unlink p) := by
  rw [Volume.unlink]
  split
  · exact h
  · refine h.enter fun digest i hi => ?_
    by_cases hp : (digest, Suffix.blob) = p
    · rw [hp, Function.update_self] at hi
      cases hi
    · rw [Function.update_of_ne hp] at hi
      exact h _ disk.now_mem_images digest i hi

/-- A synced file may be published. -/
theorem Settled.rename (h : Settled disk) (hsynced : Synced item disk) :
    Settled (disk.rename (path item .unfinished) (path item .blob)) := by
  refine h.enter fun digest i hi => ?_
  obtain ⟨-, hi⟩ | ⟨-, -, hi⟩ := Volume.rename_now_eq hi
  · exact hsynced _ (by rw [Volume.file, hi, Option.map_some])
  · exact h _ disk.now_mem_images digest i hi

theorem Settled.syncFolder (h : Settled disk) : Settled disk.syncFolder := by
  intro names hnames
  obtain rfl : names = disk.now := List.mem_singleton.mp hnames
  exact h disk.now disk.now_mem_images

/-- What is found after a loss of power is durable. -/
theorem settled_lose (disk : Disk) (time : ℕ) (found : ℕ → Bytes) :
    Settled (disk.lose time found) := fun _ _ _ _ _ => rfl

/-- A sync makes the content durable. -/
theorem synced_sync (item : File) (disk : Disk) :
    Synced item (disk.sync (path item .unfinished)) := by
  intro contents hfile
  rw [Volume.sync] at hfile
  cases hnow : disk.now (path item .unfinished) with
  | none =>
    rw [Volume.file, Volume.alter_now, hnow] at hfile
    cases hfile
  | some i =>
    rw [Volume.alter_of_some hnow, Volume.file, hnow, Option.map_some, Option.some.injEq] at hfile
    rw [← hfile]
    simp

/-! ### Evictions -/

/-- An eviction keeps what taking a name away keeps. -/
theorem wp_evict {I : Disk → Prop} (hunlink : ∀ t p, I t → I (t.unlink p))
    {unlinks : Bool × Bool} (h : I disk) :
    wp (evict item unlinks) (fun _ => I) (fun _ => I) I disk := by
  rw [evict]
  simp only [wp_bind, wp_refuseIf, wp_perform]
  have hblob := hunlink disk (path item .blob) h
  have hboth := hunlink _ (path item .unfinished) hblob
  exact ⟨fun _ => h, fun _ => ⟨hblob, fun _ => hblob, fun _ => ⟨hboth, hboth⟩⟩⟩

/-! ### The invariant -/

variable [Hash Bytes]

/-- Every blob, also one that a loss of power may bring back, has the digest in its name, and no
write extends it. -/
structure Inv (disk : Disk) : Prop where
  sound : disk.Sound
  good : ∀ names ∈ disk.images, ∀ digest i, names (digest, .blob) = some i →
    Hash.digest (disk.files i).bytes = digest
  apart : ∀ names ∈ disk.images, ∀ digest i, names (digest, .blob) = some i →
    ∀ other, disk.now (other, .unfinished) ≠ some i

theorem inv_empty : Inv (Volume.empty : Disk) where
  sound := Volume.sound_empty
  good names hnames digest i hi := by
    obtain rfl : names = fun _ => none := List.mem_singleton.mp hnames
    cases hi
  apart names hnames digest i hi := by
    obtain rfl : names = fun _ => none := List.mem_singleton.mp hnames
    cases hi

/-- Names that have no new blob and no new unfinished object can be entered. -/
theorem Inv.enter (h : Inv disk) {names : Names Path} (hsound : (disk.enter names).Sound)
    (hgood : ∀ digest i, names (digest, .blob) = some i →
      Hash.digest (disk.files i).bytes = digest)
    (hold : ∀ digest i, names (digest, .unfinished) = some i →
      disk.now (digest, .unfinished) = some i) : Inv (disk.enter names) where
  sound := hsound
  good other hother digest i hi := by
    obtain rfl | hother := List.mem_cons.mp hother
    · exact hgood digest i hi
    · exact h.good other hother digest i hi
  apart other hother digest i hi unfinished hsame := by
    obtain rfl | hother := List.mem_cons.mp hother
    · have honce := hsound.once _ (Volume.now_mem_images _) _ _ _ hi hsame
      cases honce
    · exact h.apart other hother digest i hi unfinished (hold unfinished i hsame)

/-- Changing an unfinished object leaves the blobs alone. -/
theorem Inv.alter (h : Inv disk) (digest : Digest) (f : Contents → Contents) :
    Inv (disk.alter (digest, .unfinished) f) where
  sound := h.sound.alter _ f
  good names hnames other i hi := by
    rw [Volume.alter_images] at hnames
    rw [Volume.alter_files_of_ne (h.apart names hnames other i hi digest)]
    exact h.good names hnames other i hi
  apart names hnames other i hi := by
    rw [Volume.alter_images] at hnames
    rw [Volume.alter_now]
    exact h.apart names hnames other i hi

theorem Inv.create (h : Inv disk) (digest : Digest) : Inv (disk.create (digest, .unfinished)) := by
  cases hnow : disk.now (digest, .unfinished) with
  | some i => rwa [Volume.create_of_some hnow]
  | none =>
    have hsound := h.sound.create (digest, .unfinished)
    rw [Volume.create_eq hnow] at hsound ⊢
    -- The new names have the blobs of the present ones, and the new file is none of them.
    have hblob : ∀ names ∈ disk.images, ∀ other i, names (other, .blob) = some i →
        i ≠ disk.fresh := fun names hnames other i hi =>
      Nat.ne_of_lt (h.sound.below names hnames _ i hi)
    have hold : ∀ names ∈ (disk.enter (Function.update disk.now (digest, .unfinished)
        (some disk.fresh))).images, ∀ other i, names (other, .blob) = some i →
        ∃ earlier ∈ disk.images, earlier (other, .blob) = some i := by
      intro names hnames other i hi
      obtain rfl | hnames := List.mem_cons.mp hnames
      · change Function.update disk.now (digest, .unfinished) (some disk.fresh) (other, .blob) =
          some i at hi
        rw [Function.update_of_ne (by intro heq; cases heq)] at hi
        exact ⟨disk.now, disk.now_mem_images, hi⟩
      · exact ⟨names, hnames, hi⟩
    refine ⟨hsound, fun names hnames other i hi => ?_, fun names hnames other i hi third => ?_⟩
    · obtain ⟨earlier, hearlier, hi⟩ := hold names hnames other i hi
      have hne := hblob earlier hearlier other i hi
      show Hash.digest (Function.update disk.files disk.fresh ⟨[], 0⟩ i).bytes = other
      rw [Function.update_of_ne hne]
      exact h.good earlier hearlier other i hi
    · obtain ⟨earlier, hearlier, hi⟩ := hold names hnames other i hi
      show Function.update disk.now (digest, .unfinished) (some disk.fresh) (third, .unfinished) ≠
        some i
      by_cases hthird : third = digest
      · rw [hthird, Function.update_self]
        intro hsame
        exact hblob earlier hearlier other i hi (Option.some.inj hsame).symm
      · rw [Function.update_of_ne (by intro heq; exact hthird (congrArg Prod.fst heq))]
        exact h.apart earlier hearlier other i hi third

/-- A removal keeps the invariant. -/
theorem Inv.unlink (h : Inv disk) (p : Path) : Inv (disk.unlink p) := by
  have hsound := h.sound.unlink p
  rw [Volume.unlink] at hsound ⊢
  split
  · exact h
  · next hp =>
    rw [if_neg hp] at hsound
    have hold : ∀ q i, Function.update disk.now p none q = some i → disk.now q = some i := by
      intro q i hi
      by_cases hq : q = p
      · subst hq
        rw [Function.update_self] at hi
        cases hi
      · rwa [Function.update_of_ne hq] at hi
    exact h.enter hsound
      (fun digest i hi => h.good _ disk.now_mem_images digest i (hold _ i hi))
      fun digest i hi => hold _ i hi

/-- An object with the right digest can become the blob. -/
theorem Inv.rename (h : Inv disk) (hfound : disk.file (path item .unfinished) = some contents)
    (hdigest : Hash.digest contents.bytes = item.digest) :
    Inv (disk.rename (path item .unfinished) (path item .blob)) := by
  refine h.enter (h.sound.rename _ _) (fun digest i hi => ?_) fun digest i hi => ?_
  · obtain ⟨hsame, hi⟩ | ⟨-, -, hi⟩ := Volume.rename_now_eq hi
    · rw [Volume.file, hi, Option.map_some, Option.some.injEq] at hfound
      rw [hfound, hdigest]
      exact (congrArg Prod.fst hsame).symm
    · exact h.good _ disk.now_mem_images digest i hi
  · obtain ⟨hsame, -⟩ | ⟨-, -, hi⟩ := Volume.rename_now_eq hi
    · cases congrArg Prod.snd hsame
    · exact hi

theorem Inv.syncFolder (h : Inv disk) : Inv disk.syncFolder where
  sound := h.sound.syncFolder
  good names hnames := by
    obtain rfl : names = disk.now := List.mem_singleton.mp hnames
    exact h.good disk.now disk.now_mem_images
  apart names hnames := by
    obtain rfl : names = disk.now := List.mem_singleton.mp hnames
    exact h.apart disk.now disk.now_mem_images

/-- A loss of power does no harm to blobs whose bytes are durable. -/
theorem Inv.lose (h : Inv disk) (hsettled : Settled disk) (time : ℕ) (found : ℕ → Bytes) :
    Inv (disk.lose time found) := by
  have hmem := disk.lose_now_mem time found
  have hsound := h.sound.lose time found
  refine ⟨hsound, fun names hnames digest i hi => ?_, fun names hnames digest i hi other => ?_⟩
  · obtain rfl : names = (disk.lose time found).now := List.mem_singleton.mp hnames
    show Hash.digest ((disk.files i).after (found i)).bytes = digest
    rw [Contents.after_of_durable (hsettled _ hmem digest i hi)]
    exact h.good _ hmem digest i hi
  · obtain rfl : names = (disk.lose time found).now := List.mem_singleton.mp hnames
    intro hsame
    cases hsound.once _ (Volume.now_mem_images _) _ _ _ hi hsame

theorem Settled.alter (h : Settled disk) (hinv : Inv disk) (digest : Digest)
    (f : Contents → Contents) : Settled (disk.alter (digest, .unfinished) f) := by
  intro names hnames other i hi
  rw [Volume.alter_images] at hnames
  rw [Volume.alter_files_of_ne (hinv.apart names hnames other i hi digest)]
  exact h names hnames other i hi

theorem Settled.create (h : Settled disk) (hinv : Inv disk) (digest : Digest) :
    Settled (disk.create (digest, .unfinished)) := by
  cases hnow : disk.now (digest, .unfinished) with
  | some i => rwa [Volume.create_of_some hnow]
  | none =>
    rw [Volume.create_eq hnow]
    have hold : ∀ earlier ∈ disk.images, ∀ other i, earlier (other, .blob) = some i →
        (Function.update disk.files disk.fresh ⟨[], 0⟩ i).durable =
          (Function.update disk.files disk.fresh ⟨[], 0⟩ i).bytes.length := by
      intro earlier hearlier other i hi
      have hbelow := hinv.sound.below earlier hearlier _ i hi
      rw [Function.update_of_ne (Nat.ne_of_lt hbelow)]
      exact h earlier hearlier other i hi
    intro names hnames other i hi
    obtain rfl | hnames := List.mem_cons.mp hnames
    · refine hold _ disk.now_mem_images other i ?_
      exact (Function.update_of_ne (by intro heq; cases heq) _ _).symm.trans hi
    · exact hold names hnames other i hi

/-! ### Writes -/

/-- The disk satisfies the invariant, and the blobs that were there at the start are still there.
In a firm write their bytes are durable. -/
structure Safe (firm : Prop) (start disk : Disk) : Prop where
  inv : Inv disk
  keeps : Keeps start disk
  settled : firm → Settled disk

/-- A write of a file is under way: the file has no blob. -/
structure Open (firm : Prop) (item : File) (start disk : Disk) : Prop extends
    Safe firm start disk where
  none : disk.now (path item .blob) = none

variable {firm : Prop}

theorem Open.alter (h : Open firm item start disk) (f : Contents → Contents) :
    Open firm item start (disk.alter (path item .unfinished) f) where
  inv := h.inv.alter item.digest f
  settled hfirm := (h.settled hfirm).alter h.inv item.digest f
  none := by rw [Volume.alter_now]; exact h.none
  keeps digest i hi := by
    obtain ⟨hnow, hfile⟩ := h.keeps digest i hi
    have hapart := h.inv.apart _ disk.now_mem_images digest i hnow item.digest
    rw [Volume.alter_now]
    exact ⟨hnow, (Volume.alter_files_of_ne hapart f).trans hfile⟩

theorem Open.create (h : Open firm item start disk) :
    Open firm item start (disk.create (path item .unfinished)) := by
  cases hnow : disk.now (path item .unfinished) with
  | some i => rwa [Volume.create_of_some hnow]
  | none =>
    have hblob : ∀ digest, (disk.create (path item .unfinished)).now (digest, .blob) =
        disk.now (digest, .blob) := by
      intro digest
      rw [Volume.create_eq hnow]
      exact Function.update_of_ne (by intro heq; cases heq) _ _
    refine ⟨⟨h.inv.create item.digest, fun digest i hi => ?_, fun hfirm =>
      (h.settled hfirm).create h.inv item.digest⟩, (hblob item.digest).trans h.none⟩
    obtain ⟨hnow', hfile⟩ := h.keeps digest i hi
    rw [hblob]
    refine ⟨hnow', ?_⟩
    have hbelow := h.inv.sound.below _ disk.now_mem_images _ i hnow'
    rw [Volume.create_eq hnow, ← hfile]
    exact Function.update_of_ne (Nat.ne_of_lt hbelow) _ _

/-- Taking an unfinished object away leaves the blobs. -/
theorem Safe.unlink (h : Safe firm start disk) (digest : Digest) :
    Safe firm start (disk.unlink (digest, .unfinished)) where
  inv := h.inv.unlink _
  settled hfirm := (h.settled hfirm).unlink _
  keeps other i hi := by
    obtain ⟨hnow, hfile⟩ := h.keeps other i hi
    rw [Volume.unlink]
    split
    · exact ⟨hnow, hfile⟩
    · exact ⟨(Function.update_of_ne (by intro heq; cases heq) _ _).trans hnow, hfile⟩

theorem Safe.syncFolder (h : Safe firm start disk) : Safe firm start disk.syncFolder where
  inv := h.inv.syncFolder
  keeps := h.keeps
  settled hfirm := (h.settled hfirm).syncFolder

/-- The object that becomes the blob takes the place of none. -/
theorem Open.rename (h : Open firm item start disk) (hsynced : firm → Synced item disk)
    (hfound : disk.file (path item .unfinished) = some contents)
    (hdigest : Hash.digest contents.bytes = item.digest) :
    Safe firm start (disk.rename (path item .unfinished) (path item .blob)) where
  inv := h.inv.rename hfound hdigest
  settled hfirm := (h.settled hfirm).rename (hsynced hfirm)
  keeps digest i hi := by
    obtain ⟨hnow, hfile⟩ := h.keeps digest i hi
    refine ⟨?_, hfile⟩
    have hne : (digest, Suffix.blob) ≠ path item .blob := by
      intro heq
      rw [heq, h.none] at hnow
      cases hnow
    exact (Function.update_of_ne hne _ _).trans
      ((Function.update_of_ne (by intro heq; cases heq) _ _).trans hnow)

/-- A publication is safe wherever it stops. -/
theorem wp_publish (h : Open firm item start disk) (hsynced : firm → Synced item disk) :
    wp (publish item calls) (fun _ => Safe firm start) (fun _ => Safe firm start)
      (Safe firm start) disk := by
  have hsafe := h.toSafe
  rw [publish]
  simp only [wp_bind, wp_disk, wp_demand, wp_refuseIf, wp_ite, wp_perform, wp_check]
  refine ⟨fun _ => hsafe, fun contents hfound => ⟨fun _ => hsafe, fun _ => ⟨fun _ => ?_,
    fun hdigest => ?_⟩⟩⟩
  · have hdiscarded : Safe firm start (disk.unlink (path item .unfinished)) :=
      hsafe.unlink item.digest
    exact ⟨fun _ => hsafe, fun _ => ⟨hdiscarded, fun _ _ => hdiscarded, fun _ _ => hdiscarded⟩⟩
  · have hrenamed := h.rename hsynced hfound (not_not.mp hdigest)
    exact ⟨fun _ => hsafe, fun _ => ⟨fun _ => hsafe, fun _ => ⟨hrenamed, fun _ => hrenamed,
      fun _ => ⟨hrenamed.syncFolder, hrenamed.syncFolder⟩⟩⟩⟩

/-- A write leaves the partial file open. -/
theorem wp_writeAll {written : List (Option ℕ)} (h : Open firm item start disk) :
    wp (writeAll item written data) (fun _ => Open firm item start) (fun _ => Safe firm start)
      (Safe firm start) disk := by
  induction written generalizing data disk with
  | nil =>
    rw [writeAll, wp_ite, wp_pure, wp_perform]
    have happend := h.alter fun contents => { contents with bytes := contents.bytes ++ data }
    exact ⟨fun _ => h, fun _ => ⟨happend.toSafe, happend⟩⟩
  | cons answer written ih =>
    cases answer with
    | none =>
      rw [writeAll, wp_refuseIf]
      exact ⟨fun _ => h.toSafe, fun _ => h⟩
    | some count =>
      rw [writeAll]
      simp only [wp_bind, wp_ite, wp_pure, wp_refuseIf, wp_perform]
      have happend := h.alter fun contents =>
        { contents with bytes := contents.bytes ++ data.take count }
      exact ⟨fun _ => h, fun _ => ⟨fun _ => h.toSafe, fun _ => ⟨happend.toSafe, ih happend⟩⟩⟩

/-- What a write returned from has been synced. -/
theorem wp_extend {offset : ℕ} (h : Open firm item start disk) :
    wp (extend item offset data calls)
      (fun _ t => Open firm item start t ∧ Synced item t) (fun _ => Safe firm start)
      (Safe firm start) disk := by
  have hcreate := h.create
  rw [extend]
  simp only [wp_bind, wp_disk, wp_demand, wp_refuseIf, wp_perform]
  refine ⟨fun _ => h.toSafe, fun _ => ⟨hcreate.toSafe, fun _ => hcreate.toSafe, fun _ _ =>
    ⟨fun _ => hcreate.toSafe, fun _ => ?_⟩⟩⟩
  refine wp_mono (wp_writeAll hcreate) (fun _ t ht => ?_) (fun _ _ ht => ht) fun _ ht => ht
  have hsync := ht.alter fun contents => { contents with durable := contents.bytes.length }
  simp only [wp_bind, wp_refuseIf, wp_perform]
  exact ⟨fun _ => ht.toSafe, fun _ => ⟨hsync.toSafe, hsync, synced_sync item t⟩⟩

/-- A write keeps the invariant and the blobs of all files, wherever it stops, and their bytes
durable when an empty write finds bytes that are. -/
theorem wp_write {offset : ℕ} (h : Inv disk) (hsettled : firm → Settled disk)
    (hsynced : firm → data = [] → Synced item disk) :
    wp (write item offset data calls) (fun _ => Safe firm disk) (fun _ => Safe firm disk)
      (Safe firm disk) disk := by
  have hsafe : Safe firm disk disk := ⟨h, Keeps.refl disk, hsettled⟩
  rw [write]
  simp only [wp_bind, wp_disk, wp_check, wp_refuseIf, wp_ite, wp_pure]
  refine ⟨fun _ => hsafe, fun _ => ⟨fun found hfound => ⟨fun _ => hsafe, fun hincomplete => ?_⟩,
    fun _ _ => hsafe⟩⟩
  have hopen : Open firm item disk disk := ⟨hsafe, none_of_incomplete hfound hincomplete⟩
  -- The status after the write is only read.
  have hreport {t : Disk} (ht : Safe firm disk t) :
      wp (Durable.disk >>= fun t => check (status item t t t)) (fun _ => Safe firm disk)
        (fun _ => Safe firm disk) (Safe firm disk) t := by
    rw [wp_bind, wp_disk, wp_check]
    exact ⟨fun _ _ => ht, fun _ _ => ht⟩
  have hpublish {t : Disk} (ht : Open firm item disk t) (hsynced : firm → Synced item t) :
      wp (publish item calls >>= fun _ => Durable.disk >>= fun t => check (status item t t t))
        (fun _ => Safe firm disk) (fun _ => Safe firm disk) (Safe firm disk) t :=
    wp_seq (wp_publish ht hsynced) fun _ _ ht => hreport ht
  refine ⟨fun _ => hsafe, fun _ => ⟨fun hempty => ?_, fun _ => ⟨fun _ => hsafe, fun _ => ?_⟩⟩⟩
  · exact wp_bind.mp (hpublish hopen fun hfirm => hsynced hfirm hempty)
  · refine wp_mono (wp_extend hopen) (fun _ t ht => ?_) (fun _ _ ht => ht) fun _ ht => ht
    rw [wp_ite]
    exact ⟨fun _ => hpublish ht.1 fun _ => ht.2, fun _ => hreport ht.1.toSafe⟩

/-! ### Runs -/

/-- What happens to a cache. A write or an eviction may be stopped after some of its durable
steps. -/
inductive Action
  | write (item : File) (offset : ℕ) (data : Bytes) (calls : Calls) (stop : Option ℕ)
  | evict (item : File) (unlinks : Bool × Bool) (stop : Option ℕ)
  /-- The machine loses its power. -/
  | lose (time : ℕ) (found : ℕ → Bytes)

def step (disk : Disk) : Action → Disk
  | .write item offset data calls stop => cut (write item offset data calls) disk stop
  | .evict item unlinks stop => cut (evict item unlinks) disk stop
  | .lose time found => disk.lose time found

/-- The power is lost only while the bytes of every blob are durable. -/
def Careful (disk : Disk) : Action → Prop
  | .lose _ _ => Settled disk
  | _ => True

/-- A careful action keeps the invariant. -/
theorem inv_step (disk : Disk) (action : Action) (h : Inv disk) (hcareful : Careful disk action) :
    Inv (step disk action) := by
  cases action with
  | write item offset data calls stop =>
    have hsafe : Safe False disk disk := ⟨h, Keeps.refl disk, False.elim⟩
    exact (cut_of_wp (wp_write h False.elim False.elim) hsafe stop).inv
  | evict item unlinks stop => exact cut_of_wp (wp_evict (fun _ p ht => ht.unlink p) h) h stop
  | lose time found => exact h.lose hcareful time found

/-- Every blob has the digest in its name. -/
def Published (disk : Disk) : Prop :=
  ∀ digest contents, disk.file (digest, .blob) = some contents →
    Hash.digest contents.bytes = digest

/-- A blob has all its bytes. -/
theorem Inv.published (h : Inv disk) : Published disk := by
  intro digest contents hfile
  obtain ⟨i, hi, rfl⟩ := file_eq_some.mp hfile
  exact h.good _ disk.now_mem_images digest i hi

/-- When the power is lost only while the bytes of every blob are durable, every blob has the digest
in its name, a file is reported complete only when its blob has the length of the manifest, and no
write, wherever it stops, takes a blob away or changes what is reported of it. -/
theorem publication_sound {actions : List Action}
    (h : Along step Careful Volume.empty actions) :
    let disk := run step Volume.empty actions
    Published disk ∧
      (∀ item first second third found, status item first second third = .ok found →
        found.complete = true → ∃ looked ∈ [first, third], ∃ contents,
          looked.file (path item .blob) = some contents ∧ contents.bytes.length = item.bytes) ∧
      ∀ item offset data calls stop other contents,
        disk.file (path other .blob) = some contents →
        let after := cut (write item offset data calls) disk stop
        after.file (path other .blob) = some contents ∧
          status other after after after = status other disk disk disk := by
  intro disk
  have hinv : Inv disk := Along.run_invariant inv_step inv_empty h
  refine ⟨hinv.published, fun _ _ _ _ _ hfound => length_of_complete hfound, ?_⟩
  intro item offset data calls stop other contents hfile after
  have hsafe : Safe False disk after :=
    cut_of_wp (wp_write hinv False.elim False.elim) ⟨hinv, Keeps.refl disk, False.elim⟩ stop
  have hafter := hsafe.keeps.file hfile
  refine ⟨hafter, ?_⟩
  rw [status, status, hafter, hfile]

/-! ### What makes a loss of power harmless -/

/-- An empty write finds bytes that are durable. -/
def Verified (disk : Disk) : Action → Prop
  | .write item _ data _ _ => data = [] → Synced item disk
  | _ => True

/-- A verified action keeps the cache settled. -/
theorem settled_step (disk : Disk) (action : Action) (h : Inv disk ∧ Settled disk)
    (hverified : Verified disk action) : Inv (step disk action) ∧ Settled (step disk action) := by
  cases action with
  | write item offset data calls stop =>
    have hsafe : Safe True disk disk := ⟨h.1, Keeps.refl disk, fun _ => h.2⟩
    have hwrite : wp (write item offset data calls) (fun _ => Safe True disk)
        (fun _ => Safe True disk) (Safe True disk) disk :=
      wp_write h.1 (fun _ => h.2) fun _ => hverified
    have hend := cut_of_wp hwrite hsafe stop
    exact ⟨hend.inv, hend.settled trivial⟩
  | evict item unlinks stop =>
    have hevict : wp (evict item unlinks) (fun _ t => Inv t ∧ Settled t)
        (fun _ t => Inv t ∧ Settled t) (fun t => Inv t ∧ Settled t) disk :=
      wp_evict (fun _ p ht => ⟨ht.1.unlink p, ht.2.unlink p⟩) h
    exact cut_of_wp hevict h stop
  | lose time found => exact ⟨h.1.lose h.2 time found, settled_lose disk time found⟩

/-- When every empty write finds bytes that are durable, the power is lost only while the bytes of
every blob are. -/
theorem careful_of_verified {actions : List Action}
    (h : Along step Verified Volume.empty actions) :
    Along step Careful Volume.empty actions := by
  refine Along.of_invariant settled_step (fun disk action hinv _ => ?_)
    ⟨inv_empty, settled_empty⟩ h
  cases action with
  | lose time found => exact hinv.2
  | _ => trivial

end Ficc.Models

/-! ### A blob that was not synced -/

namespace Ficc.Models.Example

open Execution

/-- The digest of the text `a`. -/
def digestA : Digest := 0xca978112ca1bbdcafac231b39a23dc4da786eff8147c4e72b9807785afee48bb

/-- The digest of a byte that is zero. -/
def digestZero : Digest := 0x6e340b9cffb37a989ca544e6bb780a2c78901d3fb33738768511a30617afa01d

/-- SHA-256 on the two contents of the example. -/
@[reducible]
def hash : Hash Bytes where
  digest bytes := if bytes = [97] then digestA else if bytes = [0] then digestZero else 0

def item : File := ⟨"model.gguf", digestA, 1, Nat.one_pos⟩

attribute [local instance] hash

/-- Every call succeeds. -/
def calls : Calls := ⟨2 * RESERVE, true, [], true, true, true, true, true, true⟩

/-- The data is written and its sync fails, the empty write publishes it, and the power is lost. -/
def unsynced : List Action :=
  [.write item 0 [97] { calls with syncs := false } none, .write item 1 [] calls none,
    .lose 0 fun _ => [0]]

/-- The data is written, and the power is lost. -/
def synced : List Action := [.write item 0 [97] calls none, .lose 0 fun _ => [0]]

/-- The empty write publishes bytes that were not synced, and what a loss of power leaves of them
does not have the digest in the name of the blob. -/
theorem not_published : ¬∀ actions, Published (run step Volume.empty actions) := by
  intro h
  have hfile : (run step Volume.empty unsynced).file (path item .blob) = some ⟨[0], 1⟩ := by
    decide +kernel
  have hdigest := h unsynced _ _ hfile
  exact absurd hdigest (by decide)

theorem publication_sound_synced :
    Published (run step Volume.empty synced) ∧
      (run step Volume.empty synced).file (path item .blob) = some ⟨[97], 1⟩ := by
  have hcareful : Along step Careful Volume.empty synced :=
    careful_of_verified ⟨fun h => (List.cons_ne_nil _ _ h).elim, trivial, trivial⟩
  exact ⟨(publication_sound hcareful).1, by decide +kernel⟩

end Ficc.Models.Example
