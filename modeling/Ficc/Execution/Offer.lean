import Ficc.Execution.Spec

/-!
# Local offers

What the owner of a machine offers: projects, runtimes, resource ceilings and weekly windows in
UTC. `Offer.refusal` is the decision that the controller makes before it places a job and that
the executor makes again before it reserves, starts or renews an attempt.
-/

namespace Ficc.Execution

/-- A wall time in whole microseconds, rounded half to even as `datetime.fromtimestamp` does. -/
def microseconds (now : ℚ) : ℤ :=
  let scaled := now * 1000000
  let below := scaled.floor
  if scaled - below < 1 / 2 then below
  else if 1 / 2 < scaled - below then below + 1
  else if below % 2 = 0 then below else below + 1

/-- A weekly window of UTC minutes. -/
structure Window where
  weekdays : List ℕ
  startMinute : ℕ
  endMinute : ℕ
  /-- The validator `ordered`: a window does not cross midnight. -/
  ordered : startMinute < endMinute
deriving DecidableEq

/-- The wall time lies in the window. The epoch was a Thursday, and Monday is weekday 0. -/
def Window.contains (window : Window) (now : ℚ) : Prop :=
  let minutes := microseconds now / 60000000
  let weekday := (minutes / 1440 + 3) % 7
  let minute := minutes % 1440
  (∃ day ∈ window.weekdays, (day : ℤ) = weekday) ∧
    (window.startMinute : ℤ) ≤ minute ∧ minute < (window.endMinute : ℤ)

instance (window : Window) (now : ℚ) : Decidable (window.contains now) :=
  inferInstanceAs (Decidable (_ ∧ _))

/-- The settings that a local owner chooses and that the administrator bounds. -/
structure OfferSettings where
  projects : List Identity
  runtimes : List Runtime
  limits : Limits
  scheduleUtc : List Window
  acceptSensitive : Bool
deriving DecidableEq

/-- Who administers the machine. -/
inductive Mode
  | managed | voluntary
deriving DecidableEq

/-- Whether the machine takes and keeps work. -/
inductive Control
  | active | paused | draining | stopped
deriving DecidableEq

/-- The reason that a control other than `active` gives. -/
def Control.reason : Control → String
  | .active => "local_active"
  | .paused => "local_paused"
  | .draining => "local_draining"
  | .stopped => "local_stopped"

/-- A revision of the local offer. -/
structure Offer extends OfferSettings where
  revision : ℕ
  mode : Mode
  control : Control
deriving DecidableEq

/-- Why the offer refuses a job at a wall time, if it does. Work that is already running
(`continuing`) survives a paused or draining machine. -/
def Offer.refusal (offer : Offer) (project : Identity) (job : Job) (now : ℚ)
    (continuing : Bool) : Option String :=
  if offer.control = .stopped ∨ (continuing = false ∧ offer.control ≠ .active) then
    some offer.control.reason
  else if project ∉ offer.projects then some "local_project_refused"
  else if job.runtime ∉ offer.runtimes then some "local_runtime_refused"
  else if ¬job.limits.fits offer.limits then some "local_resource_limit"
  else if offer.scheduleUtc ≠ [] ∧ ∀ window ∈ offer.scheduleUtc, ¬window.contains now then
    some "outside_local_schedule"
  else if job.sensitive = true ∧ (offer.mode ≠ .managed ∨ offer.acceptSensitive = false) then
    some "sensitive_data_refused"
  else none

/-- A job that a new offer does not refuse is not refused when it continues. -/
theorem Offer.refusal_continuing {offer : Offer} {project : Identity} {job : Job} {now : ℚ}
    (h : offer.refusal project job now false = none) :
    offer.refusal project job now true = none := by
  unfold refusal at h ⊢
  split_ifs at h with h₁ h₂ h₃ h₄ h₅ h₆
  have hcontrol : ¬(offer.control = .stopped ∨ true = false ∧ offer.control ≠ .active) := by
    rintro (hstopped | ⟨hfalse, -⟩)
    · exact h₁ (.inl hstopped)
    · cases hfalse
  rw [if_neg hcontrol, if_neg (not_not.mpr h₂), if_neg (not_not.mpr h₃), if_neg (not_not.mpr h₄),
    if_neg h₅, if_neg h₆]

/-- The weekly minutes of a schedule. -/
def minutes (schedule : List Window) : List (ℕ × ℕ) :=
  schedule.flatMap fun window =>
    window.weekdays.flatMap fun day =>
      (List.range' window.startMinute (window.endMinute - window.startMinute)).map fun minute =>
        (day, minute)

/-- Every minute of the week. -/
def everyMinute : List (ℕ × ℕ) :=
  (List.range 7).flatMap fun day => (List.range 1440).map fun minute => (day, minute)

/-- A local owner cannot broaden the machine administrator's installation limits. -/
def validateOffer (settings ceiling : OfferSettings) : Except Error Unit := do
  raiseIf (¬settings.projects ⊆ ceiling.projects)
    (.value "Select projects approved by the machine administrator.")
  raiseIf (¬settings.runtimes ⊆ ceiling.runtimes)
    (.value "Select runtimes approved by the machine administrator.")
  raiseIf (¬settings.limits.fits ceiling.limits)
    (.value "The offer exceeds the machine administrator's resource limits.")
  raiseIf (settings.acceptSensitive = true ∧ ceiling.acceptSensitive = false)
    (.value "The machine administrator has not approved sensitive data.")
  raiseIf (ceiling.scheduleUtc ≠ [] ∧
      ¬(if settings.scheduleUtc ≠ [] then minutes settings.scheduleUtc else everyMinute) ⊆
        minutes ceiling.scheduleUtc)
    (.value "The offer exceeds the machine administrator's approved schedule.")

end Ficc.Execution
