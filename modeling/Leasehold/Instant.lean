import Leasehold.Fault
import Leasehold.Number.Word

/-! # Points in time

Seconds since the epoch, and which of them a store can keep as a point in time. -/

namespace Leasehold.Instant

/-- 0001-01-01 00:00:00 UTC. -/
def first : Int := -62135596800

/-- 9999-12-31 23:59:59 UTC. -/
def last : Int := 253402300799

/-- The first second of the first year that fits a 32-bit count of years. -/
def firstYear : Int := -67768040609740800

/-- The last second of the last year that fits a 32-bit count of years. -/
def lastYear : Int := 67768036191676799

/-- The point in time `t` seconds after the epoch. -/
def ofEpoch (t : Int) : Except Fault Value :=
  if t < -Number.maxWord - 1 || Number.maxWord < t then .error .instantTooLarge
  else if t < firstYear || lastYear < t then .error .yearTooLarge
  else if t < first || last < t then .error .outsideCalendar
  else .ok (.instant t)

theorem ofEpoch_eq_ok_iff {t : Int} {v : Value} :
    ofEpoch t = .ok v ↔ (first ≤ t ∧ t ≤ last) ∧ v = .instant t := by
  have h0 : (Number.maxWord : Int) = 9223372036854775807 := rfl
  have h1 : (first : Int) = -62135596800 := rfl
  have h2 : (last : Int) = 253402300799 := rfl
  have h3 : (firstYear : Int) = -67768040609740800 := rfl
  have h4 : (lastYear : Int) = 67768036191676799 := rfl
  simp only [ofEpoch, Bool.or_eq_true, decide_eq_true_eq]
  split
  · simp; omega
  · split
    · simp; omega
    · split
      · simp; omega
      · constructor
        · intro h; injection h with h; exact ⟨by omega, h.symm⟩
        · rintro ⟨_, rfl⟩; rfl

end Leasehold.Instant
