import Ficc.Execution.Spec

/-!
# Execution leases

A lease is bound to the boot in which it was received and to a deadline in that boot's elapsed
nanoseconds, besides its wall expiry. `active` therefore survives neither a restart of the
machine nor an adjustment of the wall clock, and `deadline` computes the binding.
-/

namespace Ficc.Execution

/-- One reading of the local clocks. -/
structure Reading where
  wall : ℚ
  elapsedNs : ℕ
  bootId : Identity
deriving DecidableEq

/-- The boot and the elapsed interval to which a received lease is bound. -/
structure Timing where
  leaseBootId : Identity
  leaseReceivedNs : ℕ
  leaseDeadlineNs : ℕ
deriving DecidableEq

/-- The lease fields are those of a lease that holds at the reading. A record without a received
lease has no timing. -/
def active (leaseSequence : ℕ) (leaseExpiresAt : ℚ) (timing : Option Timing) (now : Reading) :
    Prop :=
  leaseSequence ≠ 0 ∧ now.wall < leaseExpiresAt ∧
    ∃ bound ∈ timing, bound.leaseBootId = now.bootId ∧
      bound.leaseReceivedNs ≤ now.elapsedNs ∧ now.elapsedNs < bound.leaseDeadlineNs

instance (leaseSequence : ℕ) (leaseExpiresAt : ℚ) (timing : Option Timing) (now : Reading) :
    Decidable (active leaseSequence leaseExpiresAt timing now) :=
  inferInstanceAs (Decidable (_ ∧ _))

/-- The timing of a lease received at the reading. The conversion to nanoseconds truncates. -/
def deadline (expiresAt : ℚ) (now : Reading) (maximumSeconds : ℚ) : Except Error Timing := do
  raiseIf (maximumSeconds ≤ 0 ∨ ¬(now.wall < expiresAt ∧ expiresAt ≤ now.wall + maximumSeconds))
    (.value "The execution lease is expired or exceeds the local lease limit.")
  let durationNs := ((expiresAt - now.wall) * 1000000000).floor
  raiseIf (durationNs ≤ 0) (.value "The execution lease has no remaining duration.")
  .ok ⟨now.bootId, now.elapsedNs, now.elapsedNs + durationNs.toNat⟩

/-- A lease whose wall expiry has passed is not active. -/
theorem not_active_of_expired {leaseSequence : ℕ} {leaseExpiresAt : ℚ} {timing : Option Timing}
    {now : Reading} (h : leaseExpiresAt ≤ now.wall) :
    ¬active leaseSequence leaseExpiresAt timing now := by
  rintro ⟨-, hwall, -⟩
  exact absurd hwall (not_lt.mpr h)

/-- A lease that expires strictly within the local limit, by at least a nanosecond, is given a
deadline. -/
theorem deadline_eq_ok {expiresAt maximumSeconds : ℚ} {now : Reading}
    (hmaximum : 0 < maximumSeconds) (hafter : now.wall < expiresAt)
    (hwithin : expiresAt ≤ now.wall + maximumSeconds)
    (hduration : 0 < ((expiresAt - now.wall) * 1000000000).floor) :
    ∃ timing, deadline expiresAt now maximumSeconds = .ok timing := by
  refine ⟨⟨now.bootId, now.elapsedNs,
    now.elapsedNs + ((expiresAt - now.wall) * 1000000000).floor.toNat⟩, ?_⟩
  simp [deadline, bind_eq_ok, not_le.mpr hmaximum, hafter, hwithin, not_le.mpr hduration]

end Ficc.Execution
