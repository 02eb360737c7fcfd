import Ficc.Execution.Offer

/-!
# The administrator's ceiling

A local owner configures an offer below the settings that the machine administrator approved.
`validateOffer` compares the two schedules as sets of weekly minutes, and `Offer.refusal` tests a
wall time against windows. Both see a time only through its minute of the week (`utcMinute`).

## Main results

* `open_iff`: a schedule is open at a time exactly when it has the time's minute of the week.
* `Offer.refusal_eq_none_iff`: what an offer asks of a job.
* `validateOffer_narrows`: an accepted offer refuses whatever the ceiling refuses.
-/

namespace Ficc.Execution

/-- The weekday and the minute of the day of a wall time. -/
def utcMinute (now : ℚ) : ℕ × ℕ :=
  let minutes := microseconds now / 60000000
  (((minutes / 1440 + 3) % 7).toNat, (minutes % 1440).toNat)

theorem Window.contains_iff {window : Window} {now : ℚ} :
    window.contains now ↔ (utcMinute now).1 ∈ window.weekdays ∧
      window.startMinute ≤ (utcMinute now).2 ∧ (utcMinute now).2 < window.endMinute := by
  have hday : 0 ≤ (microseconds now / 60000000 / 1440 + 3) % 7 := Int.emod_nonneg _ (by decide)
  have hminute : 0 ≤ microseconds now / 60000000 % 1440 := Int.emod_nonneg _ (by decide)
  unfold contains utcMinute
  dsimp only
  constructor
  · rintro ⟨⟨day, hmem, heq⟩, hstart, hend⟩
    rw [← heq, Int.toNat_natCast]
    exact ⟨hmem, by omega, by omega⟩
  · rintro ⟨hmem, hstart, hend⟩
    exact ⟨⟨_, hmem, Int.toNat_of_nonneg hday⟩, by omega, by omega⟩

theorem mem_minutes {schedule : List Window} {day minute : ℕ} :
    (day, minute) ∈ minutes schedule ↔
      ∃ window ∈ schedule, day ∈ window.weekdays ∧
        window.startMinute ≤ minute ∧ minute < window.endMinute := by
  unfold minutes
  simp only [List.mem_flatMap, List.mem_map, List.mem_range'_1, Prod.mk.injEq]
  constructor
  · rintro ⟨window, hwindow, _, hday, _, ⟨hstart, hend⟩, rfl, rfl⟩
    have hordered := window.ordered
    exact ⟨window, hwindow, hday, hstart, by omega⟩
  · rintro ⟨window, hwindow, hday, hstart, hend⟩
    have hordered := window.ordered
    exact ⟨window, hwindow, day, hday, minute, ⟨hstart, by omega⟩, rfl, rfl⟩

/-- A schedule has a window around a time exactly when it has the time's minute of the week. -/
theorem open_iff {schedule : List Window} {now : ℚ} :
    (∃ window ∈ schedule, window.contains now) ↔ utcMinute now ∈ minutes schedule := by
  rw [← Prod.mk.eta (p := utcMinute now), mem_minutes]
  simp only [Window.contains_iff]

/-- Every wall time has one of the minutes that stand for an empty schedule. -/
theorem utcMinute_mem_everyMinute (now : ℚ) : utcMinute now ∈ everyMinute := by
  have hday : (microseconds now / 60000000 / 1440 + 3) % 7 < 7 := Int.emod_lt_of_pos _ (by decide)
  have hminute : microseconds now / 60000000 % 1440 < 1440 := Int.emod_lt_of_pos _ (by decide)
  unfold everyMinute utcMinute
  simp only [List.mem_flatMap, List.mem_map, List.mem_range, Prod.mk.injEq]
  exact ⟨_, by omega, _, by omega, rfl, rfl⟩

theorem Limits.fits_trans {limits offered ceiling : Limits} (h : limits.fits offered)
    (h' : offered.fits ceiling) : limits.fits ceiling := by
  obtain ⟨hcpu, hmemory, hswap, hprocesses, hbytes, hinodes, hdevices⟩ := h
  obtain ⟨hcpu', hmemory', hswap', hprocesses', hbytes', hinodes', hdevices'⟩ := h'
  exact ⟨hcpu.trans hcpu', hmemory.trans hmemory', hswap.trans hswap',
    hprocesses.trans hprocesses', hbytes.trans hbytes', hinodes.trans hinodes',
    fun _ hdevice => hdevices' (hdevices hdevice)⟩

theorem ite_some_eq_none {c : Prop} [Decidable c] {a : α} {next : Option α} :
    (if c then some a else next) = none ↔ ¬c ∧ next = none := by
  by_cases h : c
  · simp [h]
  · simp [h]

/-- What an offer asks of a job, with the schedule as a set of minutes. -/
theorem Offer.refusal_eq_none_iff {offer : Offer} {project : Identity} {job : Job} {now : ℚ}
    {continuing : Bool} :
    offer.refusal project job now continuing = none ↔
      ¬(offer.control = .stopped ∨ (continuing = false ∧ offer.control ≠ .active)) ∧
        project ∈ offer.projects ∧ job.runtime ∈ offer.runtimes ∧
        job.limits.fits offer.limits ∧
        (offer.scheduleUtc = [] ∨ utcMinute now ∈ minutes offer.scheduleUtc) ∧
        (job.sensitive = true → offer.mode = .managed ∧ offer.acceptSensitive = true) := by
  have hschedule : ¬(offer.scheduleUtc ≠ [] ∧
      ∀ window ∈ offer.scheduleUtc, ¬window.contains now) ↔
        offer.scheduleUtc = [] ∨ utcMinute now ∈ minutes offer.scheduleUtc := by
    rw [← open_iff, not_and_or, not_not]
    push Not
    exact Iff.rfl
  have hsensitive : ¬(job.sensitive = true ∧
      (offer.mode ≠ .managed ∨ offer.acceptSensitive = false)) ↔
        (job.sensitive = true → offer.mode = .managed ∧ offer.acceptSensitive = true) := by
    rw [not_and, not_or, not_not, Bool.not_eq_false]
  unfold refusal
  simp only [ite_some_eq_none, ← hschedule, ← hsensitive, not_not, and_true]

/-- What `validateOffer` has compared. -/
structure Below (settings ceiling : OfferSettings) : Prop where
  projects : settings.projects ⊆ ceiling.projects
  runtimes : settings.runtimes ⊆ ceiling.runtimes
  limits : settings.limits.fits ceiling.limits
  acceptSensitive : settings.acceptSensitive = true → ceiling.acceptSensitive = true
  schedule : ceiling.scheduleUtc = [] ∨
    (if settings.scheduleUtc ≠ [] then minutes settings.scheduleUtc else everyMinute) ⊆
      minutes ceiling.scheduleUtc

theorem validateOffer_eq_ok_iff {settings ceiling : OfferSettings} :
    validateOffer settings ceiling = .ok () ↔ Below settings ceiling := by
  unfold validateOffer
  simp only [bind_eq_ok, raiseIf_eq_ok, not_not, exists_const]
  constructor
  · rintro ⟨hprojects, hruntimes, hlimits, hsensitive, hschedule⟩
    refine ⟨hprojects, hruntimes, hlimits, fun haccept => ?_, ?_⟩
    · by_contra hceiling
      exact hsensitive ⟨haccept, Bool.eq_false_iff.mpr hceiling⟩
    · by_contra hbeyond
      rw [not_or] at hbeyond
      exact hschedule hbeyond
  · rintro ⟨hprojects, hruntimes, hlimits, hsensitive, hschedule⟩
    refine ⟨hprojects, hruntimes, hlimits, ?_, ?_⟩
    · rintro ⟨haccept, hceiling⟩
      rw [hsensitive haccept] at hceiling
      cases hceiling
    · rintro ⟨hempty, hbeyond⟩
      exact hschedule.elim hempty hbeyond

/-- A time at which the settings are open lies in the ceiling's schedule. -/
theorem Below.open (h : Below settings ceiling) {now : ℚ}
    (hopen : settings.scheduleUtc = [] ∨ utcMinute now ∈ minutes settings.scheduleUtc) :
    ceiling.scheduleUtc = [] ∨ utcMinute now ∈ minutes ceiling.scheduleUtc := by
  refine h.schedule.imp_right fun hsubset => hsubset ?_
  split
  next hsettings => exact hopen.resolve_left hsettings
  next => exact utcMinute_mem_everyMinute now

/-- The offer that a machine makes from settings. -/
def OfferSettings.offer (settings : OfferSettings) (revision : ℕ) (mode : Mode)
    (control : Control) : Offer :=
  { settings with revision, mode, control }

/-- An accepted offer only narrows the ceiling: the offer that the ceiling itself makes takes
every job that the accepted offer takes. -/
theorem validateOffer_narrows {settings ceiling : OfferSettings}
    (haccepted : validateOffer settings ceiling = .ok ()) (revision : ℕ) (mode : Mode)
    (control : Control) (project : Identity) (job : Job) (now : ℚ) (continuing : Bool)
    (htaken : (settings.offer revision mode control).refusal project job now continuing = none) :
    (ceiling.offer revision mode control).refusal project job now continuing = none := by
  have hbelow : Below settings ceiling := validateOffer_eq_ok_iff.mp haccepted
  rw [Offer.refusal_eq_none_iff] at htaken ⊢
  obtain ⟨hcontrol, hproject, hruntime, hlimits, hschedule, hsensitive⟩ := htaken
  refine ⟨hcontrol, hbelow.projects hproject, hbelow.runtimes hruntime,
    Limits.fits_trans hlimits hbelow.limits, hbelow.open hschedule, fun hjob => ?_⟩
  obtain ⟨hmode, haccept⟩ := hsensitive hjob
  exact ⟨hmode, hbelow.acceptSensitive haccept⟩

namespace Narrowing

/-- A ceiling that is open on Mondays. -/
def ceiling : OfferSettings where
  projects := [1, 2]
  runtimes := [⟨"engine", 1, 2, "container", "none"⟩]
  limits := ⟨4000, 8, 0, 16, 64, 64, ["gpu0"], by decide⟩
  scheduleUtc := [⟨[0], 0, 1440, by decide⟩]
  acceptSensitive := true

/-- An offer of one project below the ceiling, in two windows of a Monday. -/
def settings : OfferSettings :=
  { ceiling with
    projects := [1]
    scheduleUtc := [⟨[0], 30, 32, by decide⟩, ⟨[0], 31, 35, by decide⟩]
    acceptSensitive := false }

def job : Job where
  name := "train"
  runtime := ⟨"engine", 1, 2, "container", "none"⟩
  payload := ⟨["run"], ∅⟩
  limits := ⟨1000, 4, 0, 8, 32, 32, [], by decide⟩
  inputs := []
  outputs := []
  sensitive := false
  endpoint := none

/-- Monday 5 January 1970 at 00:31 UTC. -/
def now : ℚ := 347460

end Narrowing

theorem validateOffer_narrows_monday :
    (Narrowing.ceiling.offer 1 .managed .active).refusal 1 Narrowing.job Narrowing.now false =
      none := by
  have haccepted : validateOffer Narrowing.settings Narrowing.ceiling = .ok () := by
    decide +kernel
  have htaken : (Narrowing.settings.offer 1 .managed .active).refusal 1 Narrowing.job
      Narrowing.now false = none := by
    decide +kernel
  exact validateOffer_narrows haccepted 1 .managed .active 1 Narrowing.job Narrowing.now false
    htaken

end Ficc.Execution
