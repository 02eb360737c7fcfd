import Ficc.Workloads.Scheduler

/-!
# One answer of the fair scheduler

`FairAnswer` says what an answer of the scheduler is for: the jobs of a project are started in
order, the limits are kept, no capacity is left unused while a job could be started, and projects
that could go on have been served equally often up to one job.

The loop keeps the projects in rotation (`Rotating`): along the ready projects the numbers of chosen
jobs never fall, and any two of them differ by at most one. Serving the first project and putting it
at the end keeps both.
-/

namespace Ficc.Workloads.Scheduler

open Execution

section Rotation

variable {limit capacity : ℕ} {base active : Identity → ℕ} {owner : Identity → Identity}
  {order : Identity → List Identity} {given chosen : List Identity}
  {ready : List (Identity × Queue)}

/-- The chosen jobs of a project. -/
def taken (owner : Identity → Identity) (chosen : List Identity) (project : Identity) :
    List Identity :=
  chosen.filter fun id => owner id = project

theorem taken_append (chosen : List Identity) (id project : Identity) :
    taken owner (chosen ++ [id]) project =
      taken owner chosen project ++ if owner id = project then [id] else [] := by
  unfold taken
  rw [List.filter_append]
  by_cases hsame : owner id = project
  · simp [hsame]
  · simp [hsame]

theorem taken_append_self (chosen : List Identity) {id project : Identity}
    (h : owner id = project) :
    taken owner (chosen ++ [id]) project = taken owner chosen project ++ [id] := by
  rw [taken_append, if_pos h]

theorem taken_append_ne (chosen : List Identity) {id project : Identity}
    (h : owner id ≠ project) :
    taken owner (chosen ++ [id]) project = taken owner chosen project := by
  rw [taken_append, if_neg h, List.append_nil]

/-- The projects in rotation. The jobs of a project are chosen in `order`; a project that is no
longer ready has no jobs left or is at its limit. -/
structure Rotating (limit : ℕ) (owner : Identity → Identity) (order : Identity → List Identity)
    (active : Identity → ℕ) (chosen : List Identity) (ready : List (Identity × Queue)) :
    Prop where
  once : (ready.map Prod.fst).Nodup
  ordered : ∀ project, taken owner chosen project <+: order project
  waiting : ∀ entry ∈ ready, taken owner chosen entry.1 ++ entry.2.all = order entry.1
  finished : ∀ project ∉ ready.map Prod.fst,
    taken owner chosen project = order project ∨ limit ≤ active project
  rising : ready.Pairwise fun first second =>
    (taken owner chosen first.1).length ≤ (taken owner chosen second.1).length
  even : ∀ first ∈ ready, ∀ second ∈ ready,
    (taken owner chosen first.1).length ≤ (taken owner chosen second.1).length + 1

/-- What the rotation comes to. -/
structure Balanced (limit capacity : ℕ) (base : Identity → ℕ) (owner : Identity → Identity)
    (order : Identity → List Identity) (chosen : List Identity) : Prop where
  ordered : ∀ project, taken owner chosen project <+: order project
  conserving : chosen.length < capacity → ∀ project, taken owner chosen project = order project ∨
    limit ≤ base project + (taken owner chosen project).length
  fair : ∀ first second,
    taken owner chosen first ≠ order first →
    base first + (taken owner chosen first).length < limit →
    taken owner chosen second ≠ order second →
    base second + (taken owner chosen second).length < limit →
    (taken owner chosen first).length ≤ (taken owner chosen second).length + 1

/-- A project that could go on is still ready. -/
theorem Rotating.mem_ready (h : Rotating limit owner order active chosen ready)
    (hcounted : ∀ project,
      active project = base project + chosen.countP fun id => owner id = project)
    {project : Identity} (hleft : taken owner chosen project ≠ order project)
    (hfree : base project + (taken owner chosen project).length < limit) :
    ∃ queue, (project, queue) ∈ ready := by
  by_contra hnone
  have hmem : project ∉ ready.map Prod.fst := by
    intro hmem
    obtain ⟨⟨_, queue⟩, hentry, rfl⟩ := List.mem_map.mp hmem
    exact hnone ⟨queue, hentry⟩
  rcases h.finished project hmem with hall | hfull
  · exact hleft hall
  · rw [hcounted project, List.countP_eq_length_filter] at hfull
    exact absurd hfull (not_le.mpr hfree)

/-- The loop stops with no capacity left, or with no ready project. -/
theorem Rotating.balanced (h : Rotating limit owner order active chosen ready)
    (hcounted : ∀ project,
      active project = base project + chosen.countP fun id => owner id = project)
    (hend : ready = [] ∨ capacity ≤ chosen.length) :
    Balanced limit capacity base owner order chosen where
  ordered := h.ordered
  conserving hroom project := by
    by_contra! hopen
    obtain ⟨queue, hentry⟩ := h.mem_ready hcounted hopen.1 hopen.2
    rcases hend with rfl | hfull
    · exact absurd hentry List.not_mem_nil
    · exact absurd hroom (not_lt.mpr hfull)
  fair first second hleft hfree hleft' hfree' := by
    obtain ⟨queue, hentry⟩ := h.mem_ready hcounted hleft hfree
    obtain ⟨queue', hentry'⟩ := h.mem_ready hcounted hleft' hfree'
    exact h.even _ hentry _ hentry'

/-- A project at its limit leaves the rotation. -/
theorem Rotating.skip {entry : Identity × Queue}
    (h : Rotating limit owner order active chosen (entry :: ready))
    (hfull : limit ≤ active entry.1) : Rotating limit owner order active chosen ready where
  once := (List.nodup_cons.mp h.once).2
  ordered := h.ordered
  waiting other hother := h.waiting other (List.mem_cons_of_mem _ hother)
  finished project hproject := by
    by_cases hsame : project = entry.1
    · exact .inr (hsame ▸ hfull)
    · exact h.finished project (List.not_mem_cons_of_ne_of_not_mem hsame hproject)
  rising := (List.pairwise_cons.mp h.rising).2
  even first hfirst second hsecond :=
    h.even first (List.mem_cons_of_mem _ hfirst) second (List.mem_cons_of_mem _ hsecond)

/-- The first project is served and goes to the end, unless it has no jobs left. -/
theorem Rotating.take {project : Identity} {queue : Queue}
    (h : Rotating limit owner order active chosen ((project, queue) :: ready))
    (howner : owner queue.next = project) :
    Rotating limit owner order (Function.update active project (active project + 1))
      (chosen ++ [queue.next])
      (ready ++ (queue.rest.map fun queue => (project, queue)).toList) := by
  obtain ⟨hnew, honce⟩ := List.nodup_cons.mp h.once
  obtain ⟨hfirst, hrising⟩ := List.pairwise_cons.mp h.rising
  have hself : taken owner (chosen ++ [queue.next]) project =
      taken owner chosen project ++ [queue.next] := taken_append_self chosen howner
  have hother : ∀ {other}, other ≠ project →
      taken owner (chosen ++ [queue.next]) other = taken owner chosen other :=
    fun hne => taken_append_ne chosen (fun heq => hne (heq.symm.trans howner))
  have hne : ∀ entry ∈ ready, entry.1 ≠ project := by
    intro entry hentry hsame
    exact hnew (List.mem_map.mpr ⟨entry, hentry, hsame⟩)
  have hqueue : taken owner (chosen ++ [queue.next]) project ++ queue.later = order project := by
    rw [hself, List.append_assoc]
    exact h.waiting (project, queue) List.mem_cons_self
  -- An entry of the new rotation is an old one or the rest of the queue.
  have hcases : ∀ entry ∈ ready ++ (queue.rest.map fun queue => (project, queue)).toList,
      entry ∈ ready ∨ ∃ tail, queue.rest = some tail ∧ entry = (project, tail) := by
    intro entry hentry
    rcases List.mem_append.mp hentry with hold | hnew
    · exact .inl hold
    · obtain ⟨tail, htail, rfl⟩ : ∃ tail, queue.rest = some tail ∧ (project, tail) = entry := by
        simpa using hnew
      exact .inr ⟨tail, htail, rfl⟩
  have hlow : ∀ entry ∈ ready, (taken owner chosen project).length ≤
      (taken owner chosen entry.1).length := fun entry hentry => hfirst entry hentry
  have hhigh : ∀ entry ∈ ready, (taken owner chosen entry.1).length ≤
      (taken owner chosen project).length + 1 := fun entry hentry =>
    h.even entry (List.mem_cons_of_mem _ hentry) (project, queue) List.mem_cons_self
  have hlength : (taken owner (chosen ++ [queue.next]) project).length =
      (taken owner chosen project).length + 1 := by
    rw [hself, List.length_append, List.length_singleton]
  constructor
  · rw [List.map_append, List.nodup_append]
    refine ⟨honce, ?_, ?_⟩
    · cases queue.rest <;> simp
    · intro first hmem second hsecond hsame
      obtain ⟨tail, -, rfl⟩ : ∃ tail, queue.rest = some tail ∧ project = second := by
        cases hrest : queue.rest <;> simp_all
      exact hnew (hsame ▸ hmem)
  · intro other
    by_cases hsame : other = project
    · subst hsame
      exact ⟨queue.later, hqueue⟩
    · rw [hother hsame]
      exact h.ordered other
  · intro entry hentry
    rcases hcases entry hentry with hold | ⟨tail, htail, rfl⟩
    · rw [hother (hne entry hold)]
      exact h.waiting entry (List.mem_cons_of_mem _ hold)
    · have hall : tail.all = queue.later := by
        rw [← queue.elim_all_rest, htail]
        rfl
      rw [hall]
      exact hqueue
  · intro other hmem
    by_cases hsame : other = project
    · -- The project left with its last job.
      subst hsame
      have hrest : queue.rest = none := by
        cases hrest : queue.rest with
        | none => rfl
        | some tail => exact absurd (by simp [hrest]) hmem
      have hlater : queue.later = [] := by
        rw [← queue.elim_all_rest, hrest]
        rfl
      rw [hlater, List.append_nil] at hqueue
      exact .inl hqueue
    · have hold : other ∉ ((project, queue) :: ready).map Prod.fst := by
        rw [List.map_cons, List.mem_cons, not_or]
        exact ⟨hsame, fun hold => hmem (by simpa using .inl (by simpa using hold))⟩
      rw [hother hsame, Function.update_of_ne hsame]
      exact h.finished other hold
  · rw [List.pairwise_append]
    refine ⟨?_, ?_, ?_⟩
    · refine hrising.imp_of_mem ?_
      intro first second hfirst hsecond hle
      rw [hother (hne first hfirst), hother (hne second hsecond)]
      exact hle
    · cases queue.rest <;> simp
    · intro first hfirst second hsecond
      rcases hcases second (List.mem_append_right _ hsecond) with hold | ⟨tail, -, rfl⟩
      · -- The projects are distinct, so this entry is the new one.
        obtain ⟨tail, -, rfl⟩ : ∃ tail, queue.rest = some tail ∧ (project, tail) = second := by
          simpa using hsecond
        exact absurd rfl (hne _ hold)
      · rw [hother (hne first hfirst), hlength]
        exact hhigh first hfirst
  · intro first hfirst second hsecond
    rcases hcases first hfirst with hold | ⟨tail, -, rfl⟩ <;>
      rcases hcases second hsecond with hold' | ⟨tail', -, rfl⟩
    · rw [hother (hne first hold), hother (hne second hold')]
      exact h.even first (List.mem_cons_of_mem _ hold) second (List.mem_cons_of_mem _ hold')
    · rw [hother (hne first hold), hlength]
      exact (hhigh first hold).trans (Nat.le_succ _)
    · rw [hother (hne second hold'), hlength]
      exact Nat.succ_le_succ (hlow second hold')
    · exact Nat.le_succ _

/-- The loop serves the projects in rotation. -/
theorem balanced_choose (lastProject : Option Identity)
    (h : Choosing limit capacity base owner given active chosen ready)
    (hrotating : Rotating limit owner order active chosen ready) :
    Balanced limit capacity base owner order
      (choose limit capacity active lastProject chosen ready).1 := by
  induction active, lastProject, chosen, ready using choose.induct limit capacity with
  | case1 active last chosen =>
    rw [choose]
    exact hrotating.balanced h.counted (.inl rfl)
  | case2 active last chosen project queue ready hroom hfull ih =>
    rw [choose, if_pos hroom, if_pos hfull]
    exact ih h.skip (hrotating.skip hfull)
  | case3 active last chosen project queue ready hroom hfree ih =>
    rw [choose, if_pos hroom, if_neg hfree]
    have howner : owner queue.next = project :=
      h.owned (project, queue) List.mem_cons_self queue.next List.mem_cons_self
    exact ih (h.take hroom (not_le.mp hfree)) (hrotating.take howner)
  | case4 active last chosen project queue ready hfull =>
    rw [choose, if_neg hfull]
    exact hrotating.balanced h.counted (.inr (not_lt.mp hfull))

end Rotation

section Order

instance : Std.Total Precedes where
  total first second := by
    rcases lt_trichotomy first.createdAt second.createdAt with hlt | heq | hgt
    · exact .inl (.inl hlt)
    · rcases BitVec.le_total first.id second.id with hle | hge
      · exact .inl (.inr ⟨heq, hle⟩)
      · exact .inr (.inr ⟨heq.symm, hge⟩)
    · exact .inr (.inl hgt)

instance : IsTrans PendingItem Precedes where
  trans first second third hfirst hsecond := by
    rcases hfirst with hlt | ⟨heq, hle⟩ <;> rcases hsecond with hlt' | ⟨heq', hle'⟩
    · exact .inl (hlt.trans hlt')
    · exact .inl (heq' ▸ hlt)
    · exact .inl (heq ▸ hlt')
    · exact .inr ⟨heq.trans heq', BitVec.le_trans hle hle'⟩

/-- The jobs of a project from the oldest to the newest, those of one time by identity. -/
def jobsInOrder (pending : List PendingItem) (project : Identity) : List Identity :=
  ((pending.filter fun job => job.projectId = project).insertionSort Precedes).map PendingItem.id

/-- The queue of a project has its jobs in order. -/
theorem content_queues (pending : List PendingItem) (project : Identity) :
    content (queues pending) project = jobsInOrder pending project := by
  have hempty : content ∅ project = [] := rfl
  rw [queues, content_foldl_enqueue, hempty, List.nil_append, jobsOf, jobsInOrder]
  congr 1
  -- Both lists are sorted and have the same jobs, and jobs of one project that precede each other
  -- are the same.
  refine List.Perm.eq_of_pairwise ?_ ((List.pairwise_insertionSort Precedes pending).filter _)
    (List.pairwise_insertionSort Precedes _) ?_
  · intro first second hfirst hsecond hle hge
    have hproject : first.projectId = project := by simpa using (List.mem_filter.mp hfirst).2
    have hproject' : second.projectId = project := by
      have hmem := (List.perm_insertionSort Precedes _).mem_iff.mp hsecond
      simpa using (List.mem_filter.mp hmem).2
    obtain ⟨id, _, createdAt⟩ := first
    obtain ⟨id', _, createdAt'⟩ := second
    have htime : createdAt = createdAt' := by
      rcases hle with hlt | ⟨heq, -⟩
      · rcases hge with hgt | ⟨heq, -⟩
        · exact absurd hlt hgt.not_gt
        · exact heq.symm
      · exact heq
    have hid : id = id' := by
      rcases hle with hlt | ⟨-, hle⟩
      · exact absurd htime hlt.ne
      · rcases hge with hgt | ⟨-, hge⟩
        · exact absurd htime.symm hgt.ne
        · exact BitVec.le_antisymm hle hge
    subst htime hid
    exact congrArg (PendingItem.mk id · createdAt) (hproject.trans hproject'.symm)
  · exact ((List.perm_insertionSort Precedes pending).filter _).trans
      (List.perm_insertionSort Precedes _).symm

theorem mem_projects {lastProject : Option Identity} {queues : Table Identity Queue}
    {project : Identity} (h : (queues.lookup project).isSome) :
    project ∈ projects lastProject queues := by
  have hkey : project ∈ queues.keys.insertionSort (· ≤ ·) := by
    rw [(List.perm_insertionSort _ _).mem_iff]
    exact AList.lookup_isSome.mp h
  unfold projects
  cases lastProject with
  | none => exact hkey
  | some last =>
    by_cases hlt : last < project
    · exact List.mem_append_left _ (List.mem_filter.mpr ⟨hkey, by simpa using hlt⟩)
    · have hle : project ≤ last := BitVec.not_lt.mp hlt
      exact List.mem_append_right _ (List.mem_filter.mpr ⟨hkey, by simpa using hle⟩)

theorem nodup_map_fst_ready (lastProject : Option Identity) (queues : Table Identity Queue) :
    ((ready lastProject queues).map Prod.fst).Nodup := by
  refine (nodup_projects lastProject queues).sublist ?_
  unfold ready
  induction projects lastProject queues with
  | nil => exact .slnil
  | cons project projects ih =>
    rw [List.filterMap_cons]
    cases queues.lookup project with
    | none => exact ih.cons project
    | some queue => exact ih.cons_cons project

/-- The rotation begins with every project that has jobs. -/
theorem rotating_ready (limit : ℕ) (owner : Identity → Identity) (active : Identity → ℕ)
    (lastProject : Option Identity) (pending : List PendingItem) :
    Rotating limit owner (jobsInOrder pending) active []
      (ready lastProject (queues pending)) where
  once := nodup_map_fst_ready _ _
  ordered project := List.nil_prefix
  waiting entry hentry := by
    rw [← content_queues, content, mem_ready hentry]
    rfl
  finished project hproject := by
    refine .inl ?_
    rw [← content_queues, content]
    cases hlookup : (queues pending).lookup project with
    | none => rfl
    | some queue =>
      -- A project with a queue is ready.
      refine absurd (List.mem_map.mpr ⟨(project, queue), ?_, rfl⟩) hproject
      refine List.mem_filterMap.mpr ⟨project, mem_projects ?_, ?_⟩
      · rw [hlookup]
        rfl
      · rw [hlookup]
        rfl
  rising := List.pairwise_of_forall fun _ _ => le_rfl
  even _ _ _ _ := Nat.zero_le _

/-- The project of a pending job. -/
def ownerOf (pending : List PendingItem) (id : Identity) : Identity :=
  ((pending.find? fun job => job.id = id).map PendingItem.projectId).getD id

theorem ownerOf_id {pending : List PendingItem} (hdistinct : (pending.map PendingItem.id).Nodup)
    {job : PendingItem} (hjob : job ∈ pending) : ownerOf pending job.id = job.projectId := by
  have hfind : pending.find? (fun other => other.id = job.id) = some job := by
    cases hfind : pending.find? (fun other => other.id = job.id) with
    | none => simpa using List.find?_eq_none.mp hfind job hjob
    | some other =>
      have hid : other.id = job.id := by simpa using List.find?_some hfind
      have hmem := List.mem_of_find?_eq_some hfind
      rw [List.inj_on_of_nodup_map hdistinct hmem hjob hid]
  rw [ownerOf, hfind]
  rfl

end Order

/-- The chosen jobs that are jobs of the project. -/
def chosenOf (pending : List PendingItem) (chosen : List Identity) (project : Identity) :
    List Identity :=
  chosen.filter fun id => id ∈ jobsOf pending project

/-- All jobs of the project are chosen. -/
def Exhausted (pending : List PendingItem) (chosen : List Identity) (project : Identity) : Prop :=
  chosenOf pending chosen project = jobsInOrder pending project

/-- The project has as many attempts as it may have, with its chosen jobs. -/
def Capped (s : Scheduler) (pending : List PendingItem) (active : List ActiveItem)
    (chosen : List Identity) (project : Identity) : Prop :=
  s.projectActive ≤ activeOf active project + (chosenOf pending chosen project).length

/-- An answer of a fair scheduler. -/
structure FairAnswer (s : Scheduler) (pending : List PendingItem) (active : List ActiveItem)
    (chosen : List Identity) : Prop where
  distinct : chosen.Nodup
  listed : chosen ⊆ pending.map PendingItem.id
  inOrder : ∀ project, chosenOf pending chosen project <+: jobsInOrder pending project
  atMost : chosen.length ≤ 64
  withinGlobal : chosen = [] ∨ active.length + chosen.length ≤ s.globalActive
  withinProject : ∀ project, chosenOf pending chosen project = [] ∨
    activeOf active project + (chosenOf pending chosen project).length ≤ s.projectActive
  conserving : chosen.length < min 64 (s.globalActive - active.length) →
    ∀ project, Exhausted pending chosen project ∨ Capped s pending active chosen project
  fair : ∀ first second,
    ¬Exhausted pending chosen first → ¬Capped s pending active chosen first →
    ¬Exhausted pending chosen second → ¬Capped s pending active chosen second →
    (chosenOf pending chosen first).length ≤ (chosenOf pending chosen second).length + 1

theorem taken_ownerOf {pending : List PendingItem} (hdistinct : (pending.map PendingItem.id).Nodup)
    {chosen : List Identity} (hlisted : chosen ⊆ pending.map PendingItem.id)
    (project : Identity) :
    taken (ownerOf pending) chosen project = chosenOf pending chosen project := by
  refine List.filter_congr ?_
  intro id hid
  obtain ⟨job, hjob, rfl⟩ := List.mem_map.mp (hlisted hid)
  rw [ownerOf_id hdistinct hjob, decide_eq_decide]
  constructor
  · rintro rfl
    exact List.mem_map_of_mem (List.mem_filter.mpr ⟨hjob, by simp⟩)
  · intro hmem
    obtain ⟨other, hother, hid⟩ := List.mem_map.mp hmem
    obtain ⟨hother, hproject⟩ := List.mem_filter.mp hother
    rw [← List.inj_on_of_nodup_map hdistinct hother hjob hid]
    simpa using hproject

/-- Every answer of the scheduler is fair. -/
theorem select_fair (s : Scheduler) (pending : List PendingItem) (active : List ActiveItem)
    (hdistinct : (pending.map PendingItem.id).Nodup) :
    ∃ chosen s', s.select ⟨1, pending, active⟩ = .ok (chosen, s') ∧
      FairAnswer s pending active chosen := by
  have hchoosing : Choosing s.projectActive (s.capacity ⟨1, pending, active⟩) (activeOf active)
      (ownerOf pending) (pending.map PendingItem.id) (activeOf active) []
      (ready s.lastProject (queues pending)) :=
    choosing_ready s.lastProject hdistinct fun job hjob => ownerOf_id hdistinct hjob
  have hselects := selects_choose s.lastProject hchoosing
  have hbalanced := balanced_choose s.lastProject hchoosing
    (rotating_ready s.projectActive (ownerOf pending) (activeOf active) s.lastProject pending)
  refine ⟨_, _, rfl, ?_⟩
  dsimp only
  -- The chosen jobs of a project, by owner and by membership, are the same.
  have htaken := taken_ownerOf hdistinct hselects.listed
  have hlength := hselects.length
  have hcapacity : s.capacity ⟨1, pending, active⟩ =
      min 64 (s.globalActive - active.length) := rfl
  refine ⟨hselects.distinct, hselects.listed, ?_, ?_, ?_, ?_, ?_, ?_⟩
  · intro project
    rw [← htaken project]
    exact hbalanced.ordered project
  · exact hlength.trans (min_le_left _ _)
  · rw [← List.length_eq_zero_iff]
    have hle := hlength.trans (min_le_right _ _)
    dsimp only at hle
    omega
  · intro project
    have hbound := hselects.bounded project
    rw [List.countP_eq_length_filter, ← taken, htaken project] at hbound
    rw [← List.length_eq_zero_iff]
    omega
  · intro hroom project
    rw [Exhausted, Capped, ← htaken project]
    exact hbalanced.conserving (hcapacity ▸ hroom) project
  · intro first second hleft hfree hleft' hfree'
    rw [Exhausted, ← htaken] at hleft hleft'
    rw [Capped, ← htaken, not_le] at hfree hfree'
    rw [← htaken, ← htaken]
    exact hbalanced.fair first second hleft hfree hleft' hfree'

namespace Example

/-- A scheduler that served project `7` last. -/
def scheduler : Scheduler := ⟨5, 2, some 7, by decide, Nat.two_pos, by decide⟩

/-- Three jobs of project `7` and one of project `8`. -/
def pending : List PendingItem := [⟨3, 7, 2⟩, ⟨1, 7, 1⟩, ⟨2, 7, 1⟩, ⟨4, 8, 5⟩]

/-- One attempt of project `8`. -/
def active : List ActiveItem := [⟨9, 5, 8⟩]

theorem select_fair_two_projects : (pending.map PendingItem.id).Nodup ∧
    ∃ chosen s', scheduler.select ⟨1, pending, active⟩ = .ok (chosen, s') ∧
      FairAnswer scheduler pending active chosen :=
  ⟨by decide, select_fair scheduler pending active (by decide)⟩

end Example

end Ficc.Workloads.Scheduler
