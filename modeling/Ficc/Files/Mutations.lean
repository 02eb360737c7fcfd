import Ficc.Files.Node

/-!
# What a mutation does

Whatever others do to the file system and wherever a request is stopped, the request adds at most
one decisive effect, and it has added one when it says so. Without a receipt it has done nothing.

* `Adds` relates the disk before a request to a disk on the way.
* `apply_spec` is what the mutation itself does, and `mutate_spec` what the request does.
-/

namespace Ficc.Files

open Execution (Identity)
open Durable

/-- The receipts and the effects are what they were. -/
def Same (before disk : Disk) : Prop :=
  disk.receipts = before.receipts ∧ disk.effects = before.effects

theorem Same.refl (disk : Disk) : Same disk disk := ⟨rfl, rfl⟩

theorem Same.trans {first second third : Disk} (h : Same first second) (h' : Same second third) :
    Same first third :=
  ⟨h'.1.trans h.1, h'.2.trans h.2⟩

/-- The program touches neither the receipts nor the effects. -/
def Reads {α : Type} (p : Program α) : Prop :=
  ∀ s, wp p (fun _ => Same s) (fun _ => Same s) (Same s) s

section Reads

variable {α β : Type}

theorem Reads.pure (a : α) : Reads (pure a : Program α) := fun s => wp_pure.mpr (.refl s)

/-- Two programs that only read only read in turn. -/
theorem Reads.bind {p : Program α} {f : α → Program β} (h : Reads p) (hnext : ∀ a, Reads (f a)) :
    Reads (p >>= f) := fun s =>
  wp_seq (h s) fun a t ht =>
    wp_mono (hnext a t) (fun _ _ => ht.trans) (fun _ _ => ht.trans) fun _ => ht.trans

theorem Reads.disk : Reads disk := fun s => wp_disk.mpr (.refl s)

theorem Reads.check (x : Except Error α) : Reads (check x) := fun s =>
  wp_check.mpr ⟨fun _ _ => .refl s, fun _ _ => .refl s⟩

theorem Reads.demand (value : Option α) (e : Error) : Reads (demand value e) := .check _

theorem Reads.refuseIf (c : Prop) [Decidable c] (e : Error) : Reads (refuseIf c e) := .check _

theorem Reads.refuse (c : Prop) [Decidable c] (code message : String) :
    Reads (refuse c code message) := .check _

theorem Reads.onFiles (f : FileSystem → FileSystem) : Reads (perform (onFiles f)) := fun _ =>
  wp_perform.mpr ⟨⟨rfl, rfl⟩, ⟨rfl, rfl⟩⟩

theorem Reads.reach (env : Environment) (point : Point) : Reads (env.reach point) :=
  (Reads.onFiles _).bind fun _ => .refuseIf _ _

theorem Reads.rootFd (root : Root) : Reads (rootFd root) :=
  Reads.disk.bind fun _ => (Reads.demand _ _).bind fun _ => (Reads.demand _ _).bind fun _ =>
    (Reads.refuseIf _ _).bind fun _ => (Reads.refuse _ _ _).bind fun _ => .pure _

theorem Reads.entryFd (env : Environment) (point : Point) (root : Root) (reference : Reference)
    (directory : Bool) : Reads (entryFd env point root reference directory) :=
  (Reads.reach env point).bind fun _ => (Reads.rootFd root).bind fun _ => Reads.disk.bind fun _ =>
    (Reads.demand _ _).bind fun _ => (Reads.demand _ _).bind fun _ =>
    (Reads.refuseIf _ _).bind fun _ => (Reads.refuseIf _ _).bind fun _ => .pure _

theorem Reads.parentFd (env : Environment) (root : Root) (reference : Reference) :
    Reads (parentFd env root reference) :=
  (Reads.demand _ _).bind fun _ => (Reads.reach env .parent).bind fun _ =>
    (Reads.rootFd root).bind fun _ => Reads.disk.bind fun _ => (Reads.demand _ _).bind fun _ =>
    (Reads.demand _ _).bind fun _ => (Reads.refuseIf _ _).bind fun _ =>
    (Reads.refuse _ _ _).bind fun _ => .pure _

theorem Reads.statAt (directory : ℕ) (name : Name) : Reads (statAt directory name) :=
  Reads.disk.bind fun _ => (Reads.demand _ _).bind fun _ => .demand _ _

theorem Reads.newName (name : Option Name) : Reads (newName name) :=
  (Reads.demand _ _).bind fun _ => (Reads.refuse _ _ _).bind fun _ =>
    (Reads.refuse _ _ _).bind fun _ => .pure _

end Reads

/-! ### Effects -/

/-- The request has added effects to the disk, and no receipt. -/
def Adds (id : Identity) (before : Disk) (added : List Effect) (disk : Disk) : Prop :=
  disk.receipts = before.receipts ∧ disk.effects = before.effects ++ added.map (id, ·)

theorem Adds.refl (id : Identity) (disk : Disk) : Adds id disk [] disk := by
  simp [Adds]

theorem Adds.same {id : Identity} {before disk disk' : Disk} {added : List Effect}
    (h : Adds id before added disk) (hsame : Same disk disk') : Adds id before added disk' :=
  ⟨hsame.1.trans h.1, hsame.2.trans h.2⟩

/-- One more effect. -/
theorem Adds.change {id : Identity} {before disk : Disk} {added : List Effect}
    (h : Adds id before added disk) (effect : Effect) (fs : FileSystem) :
    Adds id before (added ++ [effect])
      { disk with fs, effects := disk.effects ++ [(id, effect)] } := by
  refine ⟨h.1, ?_⟩
  simp [h.2]

/-- The number of decisive effects. -/
def decisive (effects : List Effect) : ℕ := (effects.filter Effect.decisive).length

/-- At most one effect is decisive, and an object that was removed is one that may be. -/
structure Allowed (selected : ℕ → Prop) (added : List Effect) : Prop where
  once : decisive added ≤ 1
  removed : ∀ ino, .removed ino ∈ added → selected ino

theorem Allowed.nil (selected : ℕ → Prop) : Allowed selected [] := ⟨Nat.zero_le _, nofun⟩

/-- What has been added on the way is allowed. -/
def Going (selected : ℕ → Prop) (id : Identity) (before disk : Disk) : Prop :=
  ∃ added, Adds id before added disk ∧ Allowed selected added

/-- What has been added is allowed and has the effect of the mutation. -/
def Done (selected : ℕ → Prop) (id : Identity) (before disk : Disk) : Prop :=
  ∃ added, Adds id before added disk ∧ Allowed selected added ∧ decisive added = 1

variable {selected : ℕ → Prop} {id : Identity} {before s : Disk}

/-- What is done is under way. -/
theorem Done.going {disk : Disk} (h : Done selected id before disk) :
    Going selected id before disk := by
  obtain ⟨added, hadds, hallowed, -⟩ := h
  exact ⟨added, hadds, hallowed⟩

theorem Adds.going {added : List Effect} (h : Adds id before added s)
    (hallowed : Allowed selected added) : Going selected id before s := ⟨added, h, hallowed⟩

/-- A part that reads, before the rest. -/
theorem wp_reads {α β : Type} {p : Program α} {f : α → Program β} {added : List Effect}
    {ok : β → Disk → Prop} (hp : Reads p) (h : Adds id before added s)
    (hallowed : Allowed selected added)
    (hnext : ∀ a t, Adds id before added t →
      wp (f a) ok (fun _ => Going selected id before) (Going selected id before) t) :
    wp (p >>= f) ok (fun _ => Going selected id before) (Going selected id before) s := by
  refine wp_seq (wp_mono (hp s) (fun _ t ht => ?_) (fun _ t ht => ?_) fun t ht => ?_) hnext
  · exact h.same ht
  · exact (h.same ht).going hallowed
  · exact (h.same ht).going hallowed

/-- The same, when the rest uses what the part has found. -/
theorem wp_reads_knowing {α β : Type} {p : Program α} {f : α → Program β} {added : List Effect}
    {ok : β → Disk → Prop} {known : α → Disk → Prop} (hp : Reads p)
    (hknown : wp p known (fun _ _ => True) (fun _ => True) s) (h : Adds id before added s)
    (hallowed : Allowed selected added)
    (hnext : ∀ a t, Adds id before added t → known a t →
      wp (f a) ok (fun _ => Going selected id before) (Going selected id before) t) :
    wp (p >>= f) ok (fun _ => Going selected id before) (Going selected id before) s := by
  have hboth := wp_and (hp s) hknown
  refine wp_seq (wp_mono hboth (fun a t ht => (⟨h.same ht.1, ht.2⟩ : Adds id before added t ∧
    known a t)) (fun _ t ht => ?_) fun t ht => ?_) fun a t ht => hnext a t ht.1 ht.2
  · exact (h.same ht.1).going hallowed
  · exact (h.same ht.1).going hallowed

/-- A call that changes the file system. -/
theorem change_spec {effect : Effect} {f : FileSystem → FileSystem} {added : List Effect}
    (h : Adds id before added s) (hallowed : Allowed selected (added ++ [effect])) :
    wp (change id effect f) (fun _ => Adds id before (added ++ [effect]))
      (fun _ => Going selected id before) (Going selected id before) s := by
  have hadds := h.change effect (f s.fs)
  rw [change, wp_perform]
  exact ⟨hadds.going hallowed, hadds⟩

/-- What is left to do after the effect of the mutation. -/
theorem wp_rest {α : Type} {p : Program α} {added : List Effect} (hp : Reads p)
    (h : Adds id before added s) (hallowed : Allowed selected added)
    (hdone : decisive added = 1) :
    wp p (fun _ => Done selected id before) (fun _ => Going selected id before)
      (Going selected id before) s := by
  refine wp_mono (hp s) (fun _ t ht => ?_) (fun _ t ht => ?_) fun t ht => ?_
  · exact ⟨added, h.same ht, hallowed, hdone⟩
  · exact (h.same ht).going hallowed
  · exact (h.same ht).going hallowed

/-- A rename is the effect it announces. -/
theorem rename_spec {effect : Effect} {source target : ℕ} {name new : Name} {added : List Effect}
    (h : Adds id before added s) (hbefore : Allowed selected added)
    (hallowed : Allowed selected (added ++ [effect])) :
    wp (rename id effect source name target new) (fun _ => Adds id before (added ++ [effect]))
      (fun _ => Going selected id before) (Going selected id before) s := by
  refine wp_reads Reads.disk h hbefore fun d t ht => ?_
  refine wp_reads (Reads.demand _ _) ht hbefore fun ino t ht => ?_
  refine wp_reads (Reads.refuseIf _ _) ht hbefore fun _ t ht => ?_
  exact change_spec ht hallowed

/-- One decisive effect that removes nothing. -/
theorem Allowed.single {effect : Effect} (h : ∀ ino, effect ≠ .removed ino) :
    Allowed selected [effect] where
  once := (List.length_filter_le _ _).trans (Nat.le_refl 1)
  removed ino hmem := absurd (List.mem_singleton.mp hmem).symm (h ino)

/-- A directory is made by one effect. -/
theorem mkdir_spec (env : Environment) (request : Request) (s : Disk) :
    wp (mkdir env request) (fun _ => Done selected request.operationId s)
      (fun _ => Going selected request.operationId s) (Going selected request.operationId s) s := by
  have hnil : Allowed selected [] := .nil selected
  have hmade : Allowed selected [.made] := .single (by nofun)
  refine wp_reads (Reads.demand _ _) (.refl _ s) hnil fun reference t ht => ?_
  refine wp_reads (Reads.entryFd _ _ _ _ _) ht hnil fun parent t ht => ?_
  refine wp_reads (Reads.newName _) ht hnil fun name t ht => ?_
  refine wp_reads (Reads.reach _ _) ht hnil fun _ t ht => ?_
  refine wp_reads Reads.disk ht hnil fun d t ht => ?_
  refine wp_reads (Reads.refuseIf _ _) ht hnil fun _ t ht => ?_
  refine wp_seq (change_spec ht hmade) fun _ t ht => ?_
  exact wp_rest (Reads.reach _ _) ht hmade rfl

/-- A mode is changed by one effect. -/
theorem changeMode_spec (env : Environment) (request : Request) (s : Disk) :
    wp (changeMode env request) (fun _ => Done selected request.operationId s)
      (fun _ => Going selected request.operationId s) (Going selected request.operationId s) s := by
  have hnil : Allowed selected [] := .nil selected
  have hchanged : Allowed selected [.changed] := .single (by nofun)
  refine wp_reads (Reads.demand _ _) (.refl _ s) hnil fun mode t ht => ?_
  refine wp_reads (Reads.refuse _ _ _) ht hnil fun _ t ht => ?_
  refine wp_reads (Reads.demand _ _) ht hnil fun reference t ht => ?_
  refine wp_reads (Reads.entryFd _ _ _ _ _) ht hnil fun ino t ht => ?_
  refine wp_reads Reads.disk ht hnil fun d t ht => ?_
  refine wp_reads (Reads.demand _ _) ht hnil fun object t ht => ?_
  refine wp_reads (Reads.refuse _ _ _) ht hnil fun _ t ht => ?_
  refine wp_reads (Reads.reach _ _) ht hnil fun _ t ht => ?_
  refine wp_seq (change_spec ht hchanged) fun _ t ht => ?_
  exact wp_rest (Reads.reach _ _) ht hchanged rfl

/-- Nobody replaces an object between the look at it and its removal. -/
def Undisturbed (env : Environment) (request : Request) : Prop :=
  ∀ fs directory, (env.others .remove fs).names.lookup (directory, quarantine request.operationId) =
    fs.names.lookup (directory, quarantine request.operationId)

theorem identity_ino {fs : FileSystem} {ino : ℕ} {identity : ObjectIdentity}
    (h : fs.identity ino = some identity) : identity.ino = ino := by
  simp only [FileSystem.identity, Option.map_eq_some_iff] at h
  obtain ⟨object, -, rfl⟩ := h
  rfl

/-- What can be removed is there. -/
theorem removable_eq_some {fs : FileSystem} {directory : ℕ} {name : Name} {folder : Bool} {ino : ℕ}
    (h : fs.removable directory name folder = some ino) :
    fs.names.lookup (directory, name) = some ino := by
  simp only [FileSystem.removable, Option.bind_eq_bind, Option.bind_eq_some_iff] at h
  obtain ⟨found, hfound, current, -, hchosen⟩ := h
  split_ifs at hchosen
  all_goals
    obtain rfl := Option.some.inj hchosen
    exact hfound

/-- What a name stands for when it is looked at. -/
theorem statAt_spec (directory : ℕ) (name : Name) (s : Disk) :
    wp (statAt directory name) (fun actual t => t = s ∧
        s.fs.names.lookup (directory, name) = some actual.ino)
      (fun _ _ => True) (fun _ => True) s := by
  simp only [statAt, wp_bind, wp_disk, wp_demand]
  refine ⟨fun _ => trivial, fun ino hino => ⟨fun _ => trivial, fun identity hidentity => ?_⟩⟩
  rw [identity_ino hidentity]
  exact ⟨trivial, hino⟩

theorem Allowed.quarantined (selected : ℕ → Prop) : Allowed selected [.quarantined] :=
  .single (by nofun)

/-- A removal takes an object that may be removed. -/
theorem removal_spec {env : Environment} {request : Request} {parent : ℕ} {name : Name}
    {expected : ObjectIdentity} (h : Adds request.operationId before [.quarantined] s)
    (hselected : ∀ ino, (Undisturbed env request → ino = expected.ino) → selected ino) :
    wp (removal env request parent name expected)
      (fun _ t => ∃ ino, Adds request.operationId before [.quarantined, .removed ino] t ∧
        selected ino)
      (fun _ => Going selected request.operationId before)
      (Going selected request.operationId before) s := by
  have hput := Allowed.quarantined selected
  refine wp_reads (Reads.reach _ _) h hput fun _ t ht => ?_
  refine wp_reads_knowing (Reads.statAt _ _) (statAt_spec _ _ t) ht hput fun actual u hu hstat => ?_
  obtain ⟨rfl, hlook⟩ := hstat
  rw [wp_bind, refuse, wp_refuseIf]
  refine ⟨fun _ => hu.going hput, fun hsame => ?_⟩
  have hsame := not_not.mp hsame
  -- Others act between the look at the object and its removal.
  have hothers : Adds request.operationId before [.quarantined]
      (onFiles (env.others .remove) u) := hu.same ⟨rfl, rfl⟩
  rw [wp_bind, wp_perform]
  refine ⟨hothers.going hput, ?_⟩
  rw [wp_bind, wp_disk]
  split
  · rename_i _ _ ino hremovable _
    have hino : Undisturbed env request → ino = expected.ino := by
      intro hundisturbed
      have hfound := removable_eq_some hremovable
      rw [onFiles, hundisturbed, hlook] at hfound
      rw [← Option.some.inj hfound]
      exact hsame.1
    refine wp_mono (change_spec hothers ?_) (fun _ t ht => ⟨ino, ht, hselected ino hino⟩)
      (fun _ _ => id) fun _ => id
    refine ⟨Nat.le_refl 1, fun found hmem => ?_⟩
    obtain rfl : found = ino := by simpa using hmem
    exact hselected found hino
  · rw [wp_ite]
    refine ⟨fun _ => ?_, fun _ => ?_⟩
    · have hrestored : Allowed selected [.quarantined, .restored] := ⟨Nat.zero_le _, by simp⟩
      refine wp_reads (Reads.reach _ _) hothers hput fun _ t ht => ?_
      refine wp_seq (rename_spec ht hput hrestored) fun _ t ht => ?_
      exact wp_check.mpr ⟨fun _ herror => (nomatch herror), fun _ _ => ht.going hrestored⟩
    · exact wp_check.mpr ⟨fun _ herror => (nomatch herror), fun _ _ => hothers.going hput⟩

/-- The object that a request removes, when it removes one. -/
def Selected (request : Request) (ino : ℕ) : Prop :=
  ∃ reference, request.mutation.entry = some reference ∧ ino = reference.identity.ino

/-- The object of an entry is the selected one. -/
theorem checkedAt_spec (env : Environment) (directory : ℕ) (name : Name)
    (expected : ObjectIdentity) (s : Disk) :
    wp (checkedAt env directory name expected) (fun current _ => current = expected)
      (fun _ _ => True) (fun _ => True) s := by
  refine wp_seq (wp_known trivial _) fun _ t _ => ?_
  refine wp_seq (statAt_spec directory name t) fun current u _ => ?_
  rw [wp_bind, wp_refuseIf]
  exact ⟨fun _ => trivial, fun hsame => wp_pure.mpr (not_not.mp hsame)⟩

theorem Reads.checkedAt (env : Environment) (directory : ℕ) (name : Name)
    (expected : ObjectIdentity) : Reads (checkedAt env directory name expected) :=
  (Reads.reach _ _).bind fun _ => (Reads.statAt _ _).bind fun _ =>
    (Reads.refuseIf _ _).bind fun _ => .pure _

/-- So does a rename or a deletion. -/
theorem renameOrDelete_spec {env : Environment} {request : Request} {delete : Bool}
    (hselected : ∀ ino, (Undisturbed env request → Selected request ino) → selected ino)
    (s : Disk) :
    wp (renameOrDelete env request delete) (fun _ => Done selected request.operationId s)
      (fun _ => Going selected request.operationId s) (Going selected request.operationId s) s := by
  have hnil : Allowed selected [] := .nil selected
  have hput := Allowed.quarantined selected
  have hrenamed : Allowed selected [.renamed] := .single (by nofun)
  have hentry : wp (demand request.mutation.entry Error.os : Program Reference)
      (fun reference _ => request.mutation.entry = some reference) (fun _ _ => True)
      (fun _ => True) s :=
    wp_demand.mpr ⟨fun _ => trivial, fun _ h => h⟩
  refine wp_reads_knowing (Reads.demand _ _) hentry (.refl _ s) hnil fun reference t ht hentry => ?_
  refine wp_reads (Reads.parentFd _ _ _) ht hnil fun found t ht => ?_
  obtain ⟨parent, name⟩ := found
  refine wp_reads_knowing (Reads.checkedAt _ _ _ _) (checkedAt_spec _ _ _ _ t) ht hnil
    fun expected t ht hexpected => ?_
  refine wp_reads (Reads.refuse _ _ _) ht hnil fun _ t ht => ?_
  cases delete with
  | false =>
    refine wp_reads (Reads.demand _ _) ht hnil fun reference t ht => ?_
    refine wp_reads (Reads.entryFd _ _ _ _ _) ht hnil fun target t ht => ?_
    refine wp_reads (Reads.newName _) ht hnil fun new t ht => ?_
    refine wp_reads (Reads.reach _ _) ht hnil fun _ t ht => ?_
    refine wp_seq (rename_spec ht hnil hrenamed) fun _ t ht => ?_
    exact wp_rest (Reads.reach _ _) ht hrenamed rfl
  | true =>
    refine wp_reads (Reads.reach _ _) ht hnil fun _ t ht => ?_
    refine wp_seq (rename_spec ht hnil hput) fun _ t ht => ?_
    have hremoved : ∀ ino, (Undisturbed env request → ino = expected.ino) → selected ino := by
      intro ino hino
      refine hselected ino fun hundisturbed => ⟨reference, hentry, ?_⟩
      rw [← hexpected]
      exact hino hundisturbed
    refine wp_seq (removal_spec ht hremoved) fun _ t ⟨ino, ht, hino⟩ => ?_
    refine wp_rest (Reads.reach _ _) ht ⟨Nat.le_refl 1, fun found hmem => ?_⟩ rfl
    obtain rfl : found = ino := by simpa using hmem
    exact hino

/-- An action ends with one decisive effect. -/
theorem apply_spec {env : Environment} {request : Request}
    (hselected : ∀ ino, (Undisturbed env request → Selected request ino) → selected ino)
    (s : Disk) :
    wp (apply env request) (fun _ => Done selected request.operationId s)
      (fun _ => Going selected request.operationId s) (Going selected request.operationId s) s := by
  unfold apply
  split
  · exact mkdir_spec env request s
  · exact changeMode_spec env request s
  · exact renameOrDelete_spec hselected s
  · exact renameOrDelete_spec hselected s

/-! ### Receipts -/

/-- A receipt with the state is there for the request, which has added allowed effects, and its
decisive one when it says so. No other receipt is touched. -/
structure Wrote (selected : ℕ → Prop) (request : Request) (state : ReceiptState)
    (before disk : Disk) : Prop where
  own : ∃ result, disk.receipts.lookup request.operationId =
    some ⟨request.signature, state, result⟩
  others : ∀ id, id ≠ request.operationId →
    disk.receipts.lookup id = before.receipts.lookup id
  effects : ∃ added, disk.effects = before.effects ++ added.map (request.operationId, ·) ∧
    Allowed selected added ∧ (state = .succeeded → decisive added = 1)

/-- What a request can leave behind. -/
def Outcome (selected : ℕ → Prop) (request : Request) (before disk : Disk) : Prop :=
  Same before disk ∨ before.receipts.lookup request.operationId = none ∧
    ∃ state, Wrote selected request state before disk

theorem Wrote.going {request : Request} {disk disk' : Disk}
    (h : Wrote selected request .unknown before disk) (heffects : disk.effects = before.effects)
    (hgoing : Going selected request.operationId disk disk') :
    Wrote selected request .unknown before disk' := by
  obtain ⟨added, hadds, hallowed⟩ := hgoing
  refine ⟨?_, fun id hid => ?_, added, ?_, hallowed, fun hstate => (nomatch hstate)⟩
  · rw [hadds.1]
    exact h.own
  · rw [hadds.1]
    exact h.others id hid
  · rw [hadds.2, heffects]

/-- The receipt of an action that is done. -/
theorem Wrote.done {request : Request} {disk disk' : Disk}
    (h : Wrote selected request .unknown before disk) (heffects : disk.effects = before.effects)
    (hdone : Done selected request.operationId disk disk') (result : Option ActionKind) :
    Wrote selected request .succeeded before
      { disk' with receipts :=
        disk'.receipts.insert request.operationId ⟨request.signature, .succeeded, result⟩ } := by
  obtain ⟨added, hadds, hallowed, honce⟩ := hdone
  refine ⟨⟨result, AList.lookup_insert _⟩, fun id hid => ?_, added, ?_, hallowed, fun _ => honce⟩
  · rw [AList.lookup_insert_ne hid, hadds.1]
    exact h.others id hid
  · rw [hadds.2, heffects]

/-- A request ends in a receipt of its own effects. -/
theorem mutate_spec {env : Environment} {request : Request}
    (hselected : ∀ ino, (Undisturbed env request → Selected request ino) → selected ino)
    (s : Disk) :
    wp (mutate env request)
      (fun receipt t => Outcome selected request s t ∧ receipt.digest = request.signature ∧
        t.receipts.lookup request.operationId = some receipt)
      (fun _ => Outcome selected request s) (Outcome selected request s) s := by
  have hsame : Outcome selected request s s := .inl (.refl s)
  rw [mutate, wp_bind, refuse, wp_refuseIf]
  refine ⟨fun _ => hsame, fun _ => ?_⟩
  rw [wp_bind, wp_refuseIf]
  refine ⟨fun _ => hsame, fun _ => ?_⟩
  rw [wp_bind, wp_disk]
  split
  · rename_i previous hprevious
    rw [wp_bind, refuse, wp_refuseIf]
    refine ⟨fun _ => hsame, fun hdigest => wp_pure.mpr ?_⟩
    exact ⟨hsame, not_not.mp hdigest, hprevious⟩
  · rename_i hnone
    have hwrote : ∀ {state t}, Wrote selected request state s t → Outcome selected request s t :=
      fun h => .inr ⟨hnone, _, h⟩
    rw [wp_bind, refuse, wp_refuseIf]
    refine ⟨fun _ => hsame, fun _ => ?_⟩
    rw [wp_bind, wp_refuseIf]
    refine ⟨fun _ => hsame, fun _ => ?_⟩
    rw [wp_bind, save, wp_perform]
    -- The receipt is there before anything is done.
    have hunknown : Wrote selected request .unknown s { s with
        receipts := s.receipts.insert request.operationId ⟨request.signature, .unknown, none⟩ } :=
      ⟨⟨none, AList.lookup_insert _⟩, fun _ hid => AList.lookup_insert_ne hid, [], by simp,
        .nil selected, fun hstate => (nomatch hstate)⟩
    refine ⟨hwrote hunknown, ?_⟩
    have happly := wp_mono (apply_spec hselected _) (fun _ _ h => h)
      (fun _ _ h => hwrote (hunknown.going rfl h)) fun _ h => hwrote (hunknown.going rfl h)
    refine wp_seq happly fun _ t ht => ?_
    rw [wp_bind, wp_refuseIf]
    refine ⟨fun _ => hwrote (hunknown.going rfl ht.going), fun _ => ?_⟩
    rw [wp_bind, save, wp_perform]
    have hdone := hunknown.done rfl ht (some request.mutation.action)
    exact ⟨hwrote hdone, wp_pure.mpr ⟨hwrote hdone, rfl, AList.lookup_insert _⟩⟩

/-! ### Requests that are carried out -/

/-- The disk after the first receipt. -/
def begun (request : Request) (disk : Disk) : Disk :=
  { disk with
    receipts := disk.receipts.insert request.operationId ⟨request.signature, .unknown, none⟩ }

/-- A request that has saved its first receipt is carried out to its end. -/
def Carried (env : Environment) (request : Request) (disk : Disk) (stop : Option ℕ) : Prop :=
  disk.receipts.lookup request.operationId = none → request.root.readOnly = false →
    env.fails .lock = false → env.full = false → env.fails .save = false → stop ≠ some 0 →
    stop = none ∧ ∃ receipt, (pursue env request (begun request disk)).result = .ok receipt

/-- Nothing keeps a request from its first receipt. -/
structure Begins (env : Environment) (request : Request) : Prop where
  writable : request.root.readOnly = false
  lock : env.fails .lock = false
  room : env.full = false
  save : env.fails .save = false

/-- What is pursued without an error has succeeded. -/
theorem pursue_succeeded (env : Environment) (request : Request) (s : Disk) :
    wp (pursue env request) (fun receipt _ => receipt.state = .succeeded) (fun _ _ => True)
      (fun _ => True) s := by
  refine wp_seq (wp_known trivial _) fun _ t _ => ?_
  rw [wp_bind, wp_refuseIf]
  refine ⟨fun _ => trivial, fun _ => ?_⟩
  rw [wp_bind, save, wp_perform]
  exact ⟨trivial, wp_pure.mpr rfl⟩

/-- A request that begins saves its first receipt and goes on. -/
theorem mutate_begun {env : Environment} {request : Request} {disk : Disk}
    (h : Begins env request) (hnone : disk.receipts.lookup request.operationId = none) :
    mutate env request disk =
      ⟨begun request disk :: (pursue env request (begun request disk)).states,
        (pursue env request (begun request disk)).result⟩ := by
  rw [mutate, refuse, bind_eq_of_read (refuseIf_neg (by simp [h.writable]) _ _),
    bind_eq_of_read (refuseIf_neg (by simp [h.lock]) _ _)]
  rw [bind_eq_of_read (p := Durable.disk) (s := disk) (a := disk) rfl]
  simp only [hnone]
  rw [refuse, bind_eq_of_read (refuseIf_neg (by simp [h.room]) _ _),
    bind_eq_of_read (refuseIf_neg (by simp [h.save]) _ _),
    bind_eq_of_ok (p := save _ _) rfl]
  rfl

/-- A request that does not begin does nothing. -/
theorem mutate_refused {env : Environment} {request : Request} {disk : Disk}
    (h : ¬Begins env request) (hnone : disk.receipts.lookup request.operationId = none) :
    ∃ e, mutate env request disk = ⟨[], .error e⟩ := by
  rw [mutate, refuse]
  by_cases hwritable : request.root.readOnly = true
  · exact ⟨_, bind_eq_of_error (refuseIf_pos hwritable _ _)⟩
  rw [bind_eq_of_read (refuseIf_neg hwritable _ _)]
  by_cases hlock : env.fails .lock = true
  · exact ⟨_, bind_eq_of_error (refuseIf_pos hlock _ _)⟩
  rw [bind_eq_of_read (refuseIf_neg hlock _ _),
    bind_eq_of_read (p := Durable.disk) (s := disk) (a := disk) rfl]
  simp only [hnone]
  by_cases hroom : env.full = true
  · exact ⟨_, bind_eq_of_error (refuseIf_pos hroom _ _)⟩
  rw [refuse, bind_eq_of_read (refuseIf_neg hroom _ _)]
  by_cases hsave : env.fails .save = true
  · exact ⟨_, bind_eq_of_error (refuseIf_pos hsave _ _)⟩
  refine absurd ?_ h
  exact ⟨by simpa using hwritable, by simpa using hlock, by simpa using hroom, by simpa using hsave⟩

/-- A request that is carried out leaves no receipt that says `unknown`. -/
theorem Carried.succeeded {env : Environment} {request : Request} {disk : Disk} {stop : Option ℕ}
    (h : Carried env request disk stop)
    (hnone : disk.receipts.lookup request.operationId = none) {receipt : Receipt}
    (hreceipt : (cut (mutate env request) disk stop).receipts.lookup request.operationId =
      some receipt) : receipt.state = .succeeded := by
  by_cases hbegins : Begins env request
  · by_cases hstop : stop = some 0
    · rw [hstop, cut, List.take_zero, last_nil, hnone] at hreceipt
      cases hreceipt
    obtain ⟨rfl, final, hfinal⟩ := h hnone hbegins.writable hbegins.lock hbegins.room hbegins.save
      hstop
    have hresult : (mutate env request disk).result = .ok final := by
      rw [mutate_begun hbegins hnone, hfinal]
    obtain ⟨-, -, hstored⟩ :=
      result_of_wp (@mutate_spec (fun _ => True) env request (fun _ _ => trivial) disk) hresult
    rw [hstored] at hreceipt
    obtain rfl := Option.some.inj hreceipt
    exact result_of_wp (pursue_succeeded env request _) hfinal
  · obtain ⟨e, herror⟩ := mutate_refused hbegins hnone
    rw [cut_of_read herror, hnone] at hreceipt
    cases hreceipt

/-- It is answered with its success when it begins. -/
theorem Carried.result {env : Environment} {request : Request} {disk : Disk}
    (h : Carried env request disk none) (hbegins : Begins env request)
    (hreceipts : ∀ receipt, disk.receipts.lookup request.operationId = some receipt →
      receipt.digest = request.signature ∧ receipt.state = .succeeded) :
    ∃ receipt, (mutate env request disk).result = .ok receipt ∧ receipt.state = .succeeded := by
  cases hlookup : disk.receipts.lookup request.operationId with
  | none =>
    obtain ⟨-, final, hfinal⟩ := h hlookup hbegins.writable hbegins.lock hbegins.room hbegins.save
      (by simp)
    refine ⟨final, ?_, result_of_wp (pursue_succeeded env request _) hfinal⟩
    rw [mutate_begun hbegins hlookup, hfinal]
  | some previous =>
    obtain ⟨hdigest, hstate⟩ := hreceipts previous hlookup
    refine ⟨previous, ?_, hstate⟩
    rw [mutate, refuse, bind_eq_of_read (refuseIf_neg (by simp [hbegins.writable]) _ _),
      bind_eq_of_read (refuseIf_neg (by simp [hbegins.lock]) _ _),
      bind_eq_of_read (p := Durable.disk) (s := disk) (a := disk) rfl]
    simp only [hlookup]
    rw [refuse, bind_eq_of_read (refuseIf_neg (by simp [hdigest]) _ _)]
    rfl

end Ficc.Files
