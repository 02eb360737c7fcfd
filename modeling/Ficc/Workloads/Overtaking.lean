import Ficc.Foundations.Rotation
import Ficc.Workloads.Fairness

/-!
# The fair scheduler over many calls

All that the scheduler keeps between two calls is the project that it served last. The projects that
can go on are served in the order in which they come after it (`Ahead`), within a call and from one
call to the next, whatever is pending and active in each of them.

A history is a list of picks, each with the request of its call and the jobs chosen before it in
this call. `Rotates` says that every pick is ahead of all projects that were open; `no_overtaking`
follows by going along the picks.
-/

namespace Ficc.Workloads.Scheduler

open Execution

/-! ### Histories -/

deriving instance DecidableEq for SchedulingRequest

/-- The choice of a job, with what was chosen before it in the same call. -/
structure Pick where
  request : SchedulingRequest
  chosen : List Identity
  id : Identity
deriving DecidableEq

namespace Pick

def project (pick : Pick) : Identity := ownerOf pick.request.pending pick.id

/-- Before the choice the project has a pending job that is not selected, and it is below its cap. -/
def Open (s : Scheduler) (pick : Pick) (project : Identity) : Prop :=
  (∃ job ∈ pick.request.pending, job.projectId = project ∧ job.id ∉ pick.chosen) ∧
    ¬Capped s pick.request.pending pick.request.active pick.chosen project

end Pick

/-- The picks of one answer. -/
def picks (request : SchedulingRequest) (chosen : List Identity) : List Identity → List Pick
  | [] => []
  | id :: rest => ⟨request, chosen, id⟩ :: picks request (chosen ++ [id]) rest

/-- The picks of a sequence of calls. A request that is refused changes nothing. -/
def history (s : Scheduler) : List SchedulingRequest → List Pick
  | [] => []
  | request :: rest =>
    match s.select request with
    | .error _ => history s rest
    | .ok (chosen, s') => picks request [] chosen ++ history s' rest

/-! ### Rotation -/

/-- The last of the projects, or the one before them. -/
def lastOf (last : Option Identity) (projects : List Identity) : Option Identity :=
  (projects.getLast?).or last

theorem lastOf_cons (last : Option Identity) (project : Identity) (rest : List Identity) :
    lastOf last (project :: rest) = lastOf (some project) rest := by
  cases h : rest.getLast? with
  | none =>
    obtain rfl := List.getLast?_eq_none_iff.mp h
    rfl
  | some found => simp [lastOf, List.getLast?_cons, h]

/-- The first project is visited before the second. -/
def Before (last : Option Identity) (first second : Identity) : Prop :=
  Ahead (last.map BitVec.toNat) first.toNat second.toNat

/-- Each pick is of the project that comes first among those that are open. -/
def Rotates (s : Scheduler) : Option Identity → List Pick → Prop
  | _, [] => True
  | last, pick :: rest =>
    (∀ project, pick.Open s project → project ≠ pick.project → Before last pick.project project) ∧
      Rotates s (some pick.project) rest

variable {s : Scheduler} {project : Identity} {chosen : List Identity} {request : SchedulingRequest}

theorem Rotates.append {last : Option Identity} {first second : List Pick}
    (h : Rotates s last first) (h' : Rotates s (lastOf last (first.map Pick.project)) second) :
    Rotates s last (first ++ second) := by
  induction first generalizing last with
  | nil => exact h'
  | cons pick rest ih =>
    rw [List.map_cons, lastOf_cons] at h'
    exact ⟨h.1, ih h.2 h'⟩

/-- A sequence of picks can be entered anywhere. -/
theorem Rotates.drop {last : Option Identity} {first second : List Pick}
    (h : Rotates s last (first ++ second)) :
    Rotates s (lastOf last (first.map Pick.project)) second := by
  induction first generalizing last with
  | nil => exact h
  | cons pick rest ih =>
    rw [List.map_cons, lastOf_cons]
    exact ih h.2

theorem before_visited {last : Identity} (h : project ≠ last) :
    Before (some last) project last :=
  ahead_visited fun heq => h (BitVec.eq_of_toNat_eq heq)

/-! ### One call -/

section Call

variable {limit capacity : ℕ} {base active : Identity → ℕ} {owner : Identity → Identity}
  {order : Identity → List Identity} {given chosen : List Identity}
  {ready : List (Identity × Queue)}

/-- The project can go on after the chosen jobs. -/
def Eligible (limit : ℕ) (base : Identity → ℕ) (owner : Identity → Identity)
    (order : Identity → List Identity) (chosen : List Identity) (project : Identity) : Prop :=
  taken owner chosen project ≠ order project ∧
    base project + (taken owner chosen project).length < limit

/-- Each job is of the project that comes first among those that can go on. -/
def Serves (limit : ℕ) (base : Identity → ℕ) (owner : Identity → Identity)
    (order : Identity → List Identity) : Option Identity → List Identity → List Identity → Prop
  | _, _, [] => True
  | last, chosen, id :: rest =>
    (∀ project, Eligible limit base owner order chosen project → project ≠ owner id →
      Before last (owner id) project) ∧
      Serves limit base owner order (some (owner id)) (chosen ++ [id]) rest

/-- The loop serves the projects in the order in which they come after the last one. -/
theorem serves_choose (lastProject : Option Identity)
    (h : Choosing limit capacity base owner given active chosen ready)
    (hrotating : Rotating limit owner order active chosen ready)
    (hsorted : ready.Pairwise fun first second => Before lastProject first.1 second.1) :
    ∃ more, (choose limit capacity active lastProject chosen ready).1 = chosen ++ more ∧
      (choose limit capacity active lastProject chosen ready).2 =
        lastOf lastProject (more.map owner) ∧
      Serves limit base owner order lastProject chosen more := by
  induction active, lastProject, chosen, ready using choose.induct limit capacity with
  | case1 active last chosen =>
    rw [choose]
    exact ⟨[], (List.append_nil _).symm, rfl, trivial⟩
  | case2 active last chosen project queue ready hroom hfull ih =>
    rw [choose, if_pos hroom, if_pos hfull]
    exact ih h.skip (hrotating.skip hfull) (List.pairwise_cons.mp hsorted).2
  | case3 active last chosen project queue ready hroom hfree ih =>
    rw [choose, if_pos hroom, if_neg hfree]
    have howner : owner queue.next = project :=
      h.owned (project, queue) List.mem_cons_self queue.next List.mem_cons_self
    obtain ⟨hfirst, hrest⟩ := List.pairwise_cons.mp hsorted
    have hnew := (List.nodup_cons.mp hrotating.once).1
    -- The order of the others stays, and the project that was served is behind them.
    have hnext : (ready ++ (queue.rest.map fun queue => (project, queue)).toList).Pairwise
        fun first second => Before (some project) first.1 second.1 := by
      rw [List.pairwise_append]
      refine ⟨?_, ?_, ?_⟩
      · refine hrest.imp_of_mem ?_
        intro first second hmem _ hbefore
        exact (hfirst first hmem).visit hbefore
      · cases queue.rest <;> simp
      · intro first hmem second hsecond
        obtain ⟨tail, -, rfl⟩ : ∃ tail, queue.rest = some tail ∧ (project, tail) = second := by
          simpa using hsecond
        refine before_visited ?_
        intro hsame
        exact hnew (List.mem_map.mpr ⟨first, hmem, hsame⟩)
    obtain ⟨more, hchosen, hlast, hserves⟩ :=
      ih (h.take hroom (not_le.mp hfree)) (hrotating.take howner) hnext
    refine ⟨queue.next :: more, ?_, ?_, ?_, ?_⟩
    · rw [hchosen, List.append_assoc]
      rfl
    · rw [hlast, List.map_cons, lastOf_cons, howner]
    · rintro other ⟨hleft, hlimit⟩ hne
      obtain ⟨otherQueue, hmem⟩ := hrotating.mem_ready h.counted hleft hlimit
      rw [howner] at hne ⊢
      rcases List.mem_cons.mp hmem with heq | hmem
      · exact absurd (congrArg Prod.fst heq) hne
      · exact hfirst _ hmem
    · rw [howner]
      exact hserves
  | case4 active last chosen project queue ready hfull =>
    rw [choose, if_neg hfull]
    exact ⟨[], (List.append_nil _).symm, rfl, trivial⟩

/-- The projects are listed in the order in which they come after the last one. -/
theorem pairwise_projects (lastProject : Option Identity) (queues : Table Identity Queue) :
    (projects lastProject queues).Pairwise (Before lastProject) := by
  have hle : (queues.keys.insertionSort (· ≤ ·)).Pairwise (· ≤ ·) := by
    have htotal : Std.Total (fun first second : Identity => first ≤ second) :=
      ⟨BitVec.le_total⟩
    have htrans : IsTrans Identity (· ≤ ·) := ⟨fun _ _ _ => BitVec.le_trans⟩
    exact List.pairwise_insertionSort _ _
  have hnodup : (queues.keys.insertionSort (· ≤ ·)).Nodup :=
    (List.perm_insertionSort _ _).nodup_iff.mpr queues.keys_nodup
  have hlt : ((queues.keys.insertionSort (· ≤ ·)).map BitVec.toNat).Pairwise (· < ·) := by
    rw [List.pairwise_map]
    refine (hle.and hnodup).imp ?_
    rintro first second ⟨hle, hne⟩
    exact lt_of_le_of_ne (BitVec.le_def.mp hle) fun heq => hne (BitVec.eq_of_toNat_eq heq)
  unfold projects
  cases lastProject with
  | none =>
    rw [List.pairwise_map] at hlt
    exact hlt
  | some last =>
    have hahead := pairwise_ahead hlt last.toNat
    rw [List.filter_map, List.filter_map, ← List.map_append, List.pairwise_map] at hahead
    exact hahead

/-- The rotation begins with the project after the last one. -/
theorem pairwise_ready (lastProject : Option Identity) (queues : Table Identity Queue) :
    (Scheduler.ready lastProject queues).Pairwise fun first second =>
      Before lastProject first.1 second.1 := by
  refine (pairwise_projects lastProject queues).filterMap _ ?_
  intro first second hbefore entry hentry other hother
  obtain ⟨queue, -, rfl⟩ := Option.map_eq_some_iff.mp hentry
  obtain ⟨queue', -, rfl⟩ := Option.map_eq_some_iff.mp hother
  exact hbefore

end Call

theorem map_project_picks (request : SchedulingRequest) (chosen more : List Identity) :
    (picks request chosen more).map Pick.project = more.map (ownerOf request.pending) := by
  induction more generalizing chosen with
  | nil => rfl
  | cons id rest ih => rw [picks, List.map_cons, ih, List.map_cons, Pick.project]

/-- An open project can go on. -/
theorem Pick.Open.eligible (hdistinct : (request.pending.map PendingItem.id).Nodup)
    (hlisted : chosen ⊆ request.pending.map PendingItem.id) {id : Identity}
    (h : Pick.Open s ⟨request, chosen, id⟩ project) :
    Eligible s.projectActive (activeOf request.active) (ownerOf request.pending)
      (jobsInOrder request.pending) chosen project := by
  obtain ⟨⟨job, hjob, rfl, hunselected⟩, hcap⟩ := h
  rw [Eligible, taken_ownerOf hdistinct hlisted]
  refine ⟨fun hall => hunselected ?_, not_le.mp hcap⟩
  have hmem : job.id ∈ jobsInOrder request.pending job.projectId := by
    refine List.mem_map_of_mem ((List.perm_insertionSort Precedes _).mem_iff.mpr ?_)
    exact List.mem_filter.mpr ⟨hjob, by simp⟩
  rw [← hall] at hmem
  exact (List.mem_filter.mp hmem).1

theorem rotates_picks (hdistinct : (request.pending.map PendingItem.id).Nodup)
    {last : Option Identity} {more : List Identity}
    (hlisted : chosen ++ more ⊆ request.pending.map PendingItem.id)
    (h : Serves s.projectActive (activeOf request.active) (ownerOf request.pending) (jobsInOrder request.pending) last chosen more)
    :
    Rotates s last (picks request chosen more) := by
  induction more generalizing last chosen with
  | nil => exact trivial
  | cons id rest ih =>
    obtain ⟨hfirst, hrest⟩ := h
    refine ⟨fun project hopen hne => ?_, ih ?_ hrest⟩
    · exact hfirst project (hopen.eligible hdistinct fun _ hid =>
        hlisted (List.mem_append_left _ hid)) hne
    · rwa [List.append_assoc]

/-! ### Many calls -/

/-- A call keeps the limits, and its picks are in rotation. -/
theorem select_rotates (s : Scheduler) {s' : Scheduler}
    (hdistinct : (request.pending.map PendingItem.id).Nodup)
    (h : s.select request = .ok (chosen, s')) :
    s'.projectActive = s.projectActive ∧ Rotates s s.lastProject (picks request [] chosen) ∧
      s'.lastProject = lastOf s.lastProject ((picks request [] chosen).map Pick.project) := by
  have howner : ∀ job ∈ request.pending, ownerOf request.pending job.id = job.projectId :=
    fun job hjob => ownerOf_id hdistinct hjob
  have hchoosing : Choosing s.projectActive (s.capacity request) (activeOf request.active)
      (ownerOf request.pending) (request.pending.map PendingItem.id) (activeOf request.active) []
      (ready s.lastProject (queues request.pending)) :=
    choosing_ready s.lastProject hdistinct howner
  have hselects := selects_choose s.lastProject hchoosing
  obtain ⟨more, hchosen, hlast, hserves⟩ := serves_choose s.lastProject hchoosing
    (rotating_ready s.projectActive (ownerOf request.pending) (activeOf request.active)
      s.lastProject request.pending) (pairwise_ready s.lastProject (queues request.pending))
  rw [hchosen, List.nil_append] at hselects
  simp only [select, bind_eq_ok, Except.ok.injEq, Prod.mk.injEq] at h
  obtain ⟨-, -, rfl, rfl⟩ := h
  rw [hchosen, List.nil_append]
  refine ⟨rfl, rotates_picks hdistinct hselects.listed hserves, ?_⟩
  rw [map_project_picks]
  exact hlast

theorem Rotates.congr {s' : Scheduler} (hlimit : s'.projectActive = s.projectActive)
    {last : Option Identity} {picks : List Pick} (h : Rotates s' last picks) :
    Rotates s last picks := by
  induction picks generalizing last with
  | nil => exact trivial
  | cons pick rest ih =>
    refine ⟨fun project hopen => h.1 project ⟨hopen.1, ?_⟩, ih h.2⟩
    rw [Capped, hlimit]
    exact hopen.2

/-- The picks of all calls are in rotation. -/
theorem rotates_history (s : Scheduler) {requests : List SchedulingRequest}
    (hdistinct : ∀ request ∈ requests, (request.pending.map PendingItem.id).Nodup) :
    Rotates s s.lastProject (s.history requests) := by
  induction requests generalizing s with
  | nil => exact trivial
  | cons request rest ih =>
    have hrest : ∀ other ∈ rest, (other.pending.map PendingItem.id).Nodup := fun other hother =>
      hdistinct other (List.mem_cons_of_mem _ hother)
    rw [history]
    split
    · exact ih s hrest
    · rename_i chosen s' hselect
      obtain ⟨hlimit, hrotates, hlast⟩ :=
        select_rotates s (hdistinct request List.mem_cons_self) hselect
      refine hrotates.append ?_
      rw [← hlast]
      exact (ih s' hrest).congr hlimit

/-- A project that stays open is picked before one that comes after it in the rotation. -/
theorem Rotates.reaches {last : Option Identity} {middle after : List Pick} {second : Pick}
    (h : Rotates s last (middle ++ second :: after)) (hbefore : Before last project second.project)
    (hmiddle : ∀ pick ∈ middle, pick.project ≠ second.project)
    (hopen : ∀ pick ∈ middle ++ [second], pick.Open s project) :
    ∃ pick ∈ middle, pick.project = project := by
  induction middle generalizing last with
  | nil =>
    have hne : project ≠ second.project := by
      rintro rfl
      exact hbefore.asymm hbefore
    have hahead := h.1 project (hopen second (List.mem_append_right _ List.mem_cons_self)) hne
    exact absurd hahead hbefore.asymm
  | cons pick rest ih =>
    by_cases hsame : pick.project = project
    · exact ⟨pick, List.mem_cons_self, hsame⟩
    · -- The project was open and another one was picked, which is ahead of it.
      have hahead := h.1 project (hopen pick List.mem_cons_self) (Ne.symm hsame)
      obtain ⟨found, hfound, heq⟩ := ih h.2 (hahead.visit hbefore)
        (fun other hother => hmiddle other (List.mem_cons_of_mem _ hother))
        fun other hother => hopen other (List.mem_cons_of_mem _ hother)
      exact ⟨found, List.mem_cons_of_mem _ hfound, heq⟩

theorem no_overtaking (s : Scheduler) (requests : List SchedulingRequest)
    (hdistinct : ∀ request ∈ requests, (request.pending.map PendingItem.id).Nodup)
    {before middle after : List Pick} {first second : Pick} {project : Identity}
    (hhistory : s.history requests = before ++ first :: (middle ++ second :: after))
    (hsame : first.project = second.project)
    (hmiddle : ∀ pick ∈ middle, pick.project ≠ second.project)
    (hother : project ≠ second.project)
    (hopen : ∀ pick ∈ middle ++ [second], pick.Open s project) :
    ∃ pick ∈ middle, pick.project = project := by
  have hrotates := rotates_history s hdistinct
  rw [hhistory] at hrotates
  have hbetween := hrotates.drop.2
  rw [hsame] at hbetween
  exact hbetween.reaches (before_visited hother) hmiddle hopen

namespace Example

/-- A scheduler that starts one job at a time. -/
def single : Scheduler := ⟨1, 1, none, one_le_limit, Nat.one_pos, Nat.one_pos⟩

/-- Two projects, with one job of each left until the end. -/
def requests : List SchedulingRequest :=
  [⟨1, [⟨1, 7, 1⟩, ⟨2, 8, 1⟩, ⟨3, 7, 2⟩], []⟩, ⟨1, [⟨2, 8, 1⟩, ⟨3, 7, 2⟩], []⟩,
    ⟨1, [⟨3, 7, 2⟩, ⟨4, 8, 3⟩], []⟩]

def pick (k : ℕ) (id : Identity) : Pick := ⟨requests.getD k ⟨1, [], []⟩, [], id⟩

theorem no_overtaking_two_projects :
    single.history requests = [] ++ pick 0 1 :: ([pick 1 2] ++ pick 2 3 :: []) ∧
    ∃ between ∈ [pick 1 2], between.project = 8 := by
  have hcap : ∀ k id, (pick k id).request.active = [] →
      ¬Capped single (pick k id).request.pending (pick k id).request.active [] 8 := by
    intro k id hactive
    rw [Capped, hactive]
    simp [single, activeOf, chosenOf]
  have hhistory : single.history requests = [] ++ pick 0 1 :: ([pick 1 2] ++ pick 2 3 :: []) := by
    decide +kernel
  refine ⟨hhistory, no_overtaking single requests (by decide) hhistory (by decide) (by decide)
    (by decide) ?_⟩
  intro found hfound
  rcases List.mem_cons.mp hfound with rfl | hfound
  · exact ⟨⟨⟨2, 8, 1⟩, by decide, by decide, by decide⟩, hcap _ _ (by decide)⟩
  · obtain rfl := List.mem_singleton.mp hfound
    exact ⟨⟨⟨4, 8, 3⟩, by decide, by decide, by decide⟩, hcap _ _ (by decide)⟩

end Example

end Ficc.Workloads.Scheduler
