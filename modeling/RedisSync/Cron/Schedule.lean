import RedisSync.Cron.Parser

/-!
# When the polling job runs

`Sync` adds its polling job with
`rs.Cron.AddFunc(fmt.Sprintf("*/%d * * * *", rs.Interval), …)` (source lines
135-157), discards the error `AddFunc` may return, and starts the cron. The
interval is whatever `SetInterval` stored last: `NewService` passes any `uint32`
of its configuration, `NewRedisSyncFromConfig` only a positive one.

A `SpecSchedule` fires at a time when the time's month, day, hour, minute and
second are in its masks (the tests of `SpecSchedule.Next`, with `dayMatches` for
the day). The cron reads a Unix time in its location through a `Clock`; `Next`
gives the first second after its argument at which the schedule fires, and the
runner runs an entry at `Next(start)` and then at `Next` of each run's time. So
the runner skips no firing: while `Next` finds a time, the runs from a start are
exactly the firings after it (`SpecSchedule.runs_iff`).

The spec of `Sync` is five fields, so its first field is the *second*:
`parse_cronSpec` reads it as `stepSchedule n`, every `n`-th second of each
minute, and refuses `*/0`. `cronSchedule_runs` is what follows for every
interval, and `schedule_counterexample` the two intervals, 7 and 0, at which the
runs are not `n` seconds apart.
-/

namespace RedisSync
namespace Cron

/-! ## Reading a time -/

/-- The fields of a time that `Next` compares, in the cron's location. -/
structure Instant where
  second : Nat
  minute : Nat
  hour : Nat
  day : Nat
  month : Nat
  weekday : Nat
  deriving DecidableEq, Repr

/-- How the cron reads a Unix time in its location (`cron.New()` uses
`time.Local`): each field in its range. The location is offset from UTC by a
whole number of minutes, so the second of a time is that of the Unix time. -/
structure Clock where
  read : Nat → Instant
  second_eq : ∀ t, (read t).second = t % 60
  minute_lt : ∀ t, (read t).minute < 60
  hour_lt : ∀ t, (read t).hour < 24
  day_mem : ∀ t, 1 ≤ (read t).day ∧ (read t).day ≤ 31
  month_mem : ∀ t, 1 ≤ (read t).month ∧ (read t).month ≤ 12
  weekday_lt : ∀ t, (read t).weekday < 7

/-- The day of the month and the month of the day `days` after 1970-01-01, in the
Gregorian calendar: cycles of 400, 100 and 4 years and of one year, counted from
a March 1, cut back by one on the last day of a cycle as `time` does. -/
def civilDate (days : Nat) : Nat × Nat :=
  let doe := (days + 719468) % 146097
  let doc := doe - 36524 * (doe / 36524 - doe / 36524 / 4)
  let doq := doc % 1461
  let doy := doq - 365 * (doq / 365 - doq / 365 / 4)
  let mp := (5 * doy + 2) / 153
  (doy - (153 * mp + 2) / 5 + 1, if mp < 10 then mp + 3 else mp - 9)

/-- The day of a year counted from March 1 is at most 365. -/
theorem dayOfYear_le (doc : Nat) :
    doc % 1461 - 365 * (doc % 1461 / 365 - doc % 1461 / 365 / 4) ≤ 365 := by
  omega

/-- The day and the month of the `doy`-th day of a year counted from March 1. -/
theorem monthDay_mem {doy : Nat} (h : doy ≤ 365) :
    (1 ≤ doy - (153 * ((5 * doy + 2) / 153) + 2) / 5 + 1 ∧
      doy - (153 * ((5 * doy + 2) / 153) + 2) / 5 + 1 ≤ 31) ∧
    1 ≤ (if (5 * doy + 2) / 153 < 10 then (5 * doy + 2) / 153 + 3
      else (5 * doy + 2) / 153 - 9) ∧
    (if (5 * doy + 2) / 153 < 10 then (5 * doy + 2) / 153 + 3
      else (5 * doy + 2) / 153 - 9) ≤ 12 := by
  split <;> omega

theorem civilDate_mem (days : Nat) :
    (1 ≤ (civilDate days).1 ∧ (civilDate days).1 ≤ 31) ∧
      1 ≤ (civilDate days).2 ∧ (civilDate days).2 ≤ 12 :=
  monthDay_mem (dayOfYear_le _)

/-- The clock of a cron in UTC. -/
def Clock.utc : Clock where
  read t := ⟨t % 60, t / 60 % 60, t / 3600 % 24, (civilDate (t / 86400)).1,
    (civilDate (t / 86400)).2, (t / 86400 + 4) % 7⟩
  second_eq _ := rfl
  minute_lt _ := Nat.mod_lt _ (by omega)
  hour_lt _ := Nat.mod_lt _ (by omega)
  day_mem _ := (civilDate_mem _).1
  month_mem _ := (civilDate_mem _).2
  weekday_lt _ := Nat.mod_lt _ (by omega)

/-! ## Matching -/

/-- `x & y > 0`. -/
def meets (x y : BitVec 64) : Bool := (x &&& y) != 0

/-- `1 << i & b > 0` reads bit `i` of `b`. -/
theorem meets_one_shiftLeft (b : BitVec 64) (i : Nat) : meets (1#64 <<< i) b = b.getLsbD i := by
  unfold meets
  cases hb : b.getLsbD i
  · have : (1#64 <<< i &&& b) = 0#64 := BitVec.eq_of_getLsbD_eq fun j => by
      simp only [BitVec.getLsbD_and, getLsbD_one_shiftLeft, BitVec.getLsbD_zero]
      by_cases hj : j.val = i
      · simp [hj, hb]
      · simp [hj]
    simp [this]
  · have hi : i < 64 := by
      by_contra h; rw [BitVec.getLsbD_ge b i (by omega)] at hb; cases hb
    have : (1#64 <<< i &&& b) ≠ 0#64 := fun h => by
      have := congrArg (BitVec.getLsbD · i) h
      simp [getLsbD_one_shiftLeft, hb, hi] at this
    simpa using this

theorem meets_starBit (b : BitVec 64) : meets b starBit = b.getLsbD 63 := by
  rw [meets, BitVec.and_comm, ← meets, starBit, meets_one_shiftLeft]

/-- `dayMatches(s, t)`: with a `*` in either day field both must match, and
otherwise either. -/
def dayMatches (s : SpecSchedule) (t : Instant) : Bool :=
  let domMatch := meets (1#64 <<< t.day) s.Dom
  let dowMatch := meets (1#64 <<< t.weekday) s.Dow
  if meets s.Dom starBit || meets s.Dow starBit then domMatch && dowMatch else domMatch || dowMatch

/-- A time at which `Next` stops: its month, day, hour, minute and second all
match. -/
def SpecSchedule.fires (s : SpecSchedule) (t : Instant) : Bool :=
  meets (1#64 <<< t.month) s.Month && dayMatches s t && meets (1#64 <<< t.hour) s.Hour &&
    meets (1#64 <<< t.minute) s.Minute && meets (1#64 <<< t.second) s.Second

/-- The bits of `all r`: the field's values, and `starBit`. -/
theorem all_getLsbD {r : Bounds} (hmax : r.max < 63) (j : Nat) :
    (all r).getLsbD j = true ↔ (r.min ≤ j ∧ j ≤ r.max) ∨ j = 63 := by
  rw [all, BitVec.getLsbD_or, Bool.or_eq_true, getBits_getLsbD Nat.one_pos (by omega), starBit,
    getLsbD_one_shiftLeft]
  simp only [Nat.one_dvd, and_true, Bool.and_eq_true, decide_eq_true_eq]
  omega

/-! ## `Next` and the runner -/

/-- The first time from `t` on, within `fuel` seconds, that `p` accepts. -/
def firstFrom (p : Nat → Bool) (t : Nat) : (fuel : Nat) → Option Nat
  | 0 => none
  | fuel + 1 => if p t then some t else firstFrom p (t + 1) fuel

/-- The search stops at the first time `p` accepts. -/
theorem firstFrom_eq {p : Nat → Bool} {d : Nat} :
    ∀ {t fuel : Nat}, p (t + d) = true → (∀ e < d, p (t + e) = false) → d < fuel →
      firstFrom p t fuel = some (t + d) := by
  induction d with
  | zero =>
    intro t fuel hp _ hfuel
    obtain ⟨f, rfl⟩ : ∃ f, fuel = f + 1 := ⟨fuel - 1, by omega⟩
    simp only [Nat.add_zero] at hp ⊢
    rw [firstFrom, if_pos hp]
  | succ d ih =>
    intro t fuel hp hmin hfuel
    obtain ⟨f, rfl⟩ : ∃ f, fuel = f + 1 := ⟨fuel - 1, by omega⟩
    have hshift : ∀ e, t + 1 + e = t + (e + 1) := fun e => by omega
    have h0 : p t = false := hmin 0 (by omega)
    rw [firstFrom, if_neg (by simp [h0]), ih (by rwa [hshift])
      (fun e he => by rw [hshift]; exact hmin _ (by omega)) (by omega), hshift]

/-- The search finds a time `p` accepts when there is one within its fuel. -/
theorem firstFrom_exists {p : Nat → Bool} :
    ∀ {t fuel d : Nat}, p (t + d) = true → d < fuel →
      ∃ e ≤ d, firstFrom p t fuel = some (t + e) ∧ p (t + e) = true
  | t, fuel + 1, d, hp, hd => by
    have hshift : ∀ e, t + 1 + e = t + (e + 1) := fun e => by omega
    by_cases h0 : p t = true
    · exact ⟨0, Nat.zero_le _, by simp [firstFrom, h0], h0⟩
    · rcases d with _ | d
      · exact absurd hp h0
      · obtain ⟨e, he, hf, hpe⟩ := firstFrom_exists (t := t + 1) (d := d)
          (by rwa [hshift]) (show d < fuel by omega)
        refine ⟨e + 1, by omega, ?_, by rwa [hshift] at hpe⟩
        rw [firstFrom, if_neg h0, hf, hshift]

/-- How far `Next` looks ahead: it gives up once the year passes five years after
the start, so it finds every time within five years of 365 days. -/
def horizon : Nat := 5 * 365 * 86400

/-- `s.Next(t)` under the cron's clock: the first second after `t` at which `s`
fires, `none` standing for the zero time `Next` returns when it finds none. -/
def SpecSchedule.next (s : SpecSchedule) (clk : Clock) (t : Nat) : Option Nat :=
  firstFrom (fun u => s.fires (clk.read u)) (t + 1) horizon

/-- The times the runner runs an entry added before `Start` at `start`: at
`Next(start)`, and after a run at `t`, at `Next(t)`. -/
def SpecSchedule.runs (s : SpecSchedule) (clk : Clock) (start : Nat) : Nat → Option Nat
  | 0 => s.next clk start
  | k + 1 => (s.runs clk start k).bind (s.next clk)

/-- A schedule that fires the second after `t` runs then. -/
theorem SpecSchedule.next_eq_succ {s : SpecSchedule} {clk : Clock} {t : Nat}
    (h : s.fires (clk.read (t + 1)) = true) : s.next clk t = some (t + 1) :=
  firstFrom_eq (d := 0) h (fun _ he => absurd he (Nat.not_lt_zero _)) (by decide)

/-- What the search returns is a time from `t` on that `p` accepts, every time
before it refused. -/
theorem firstFrom_spec {p : Nat → Bool} :
    ∀ {t fuel u : Nat}, firstFrom p t fuel = some u →
      t ≤ u ∧ p u = true ∧ ∀ v, t ≤ v → v < u → p v = false
  | _, 0, _, h => nomatch h
  | t, fuel + 1, u, h => by
    unfold firstFrom at h
    split at h
    · next hp =>
      cases h
      exact ⟨le_rfl, hp, fun v h1 h2 => absurd h2 (by omega)⟩
    · next hp =>
      obtain ⟨h1, h2, h3⟩ := firstFrom_spec h
      refine ⟨by omega, h2, fun v hv hvu => ?_⟩
      rcases Nat.eq_or_lt_of_le hv with rfl | hv
      · exact Bool.eq_false_iff.mpr hp
      · exact h3 v hv hvu

section
variable {s : SpecSchedule} {clk : Clock} {start : Nat}

/-- `Next` gives the first firing after its argument. -/
theorem SpecSchedule.next_spec {t u : Nat} (h : s.next clk t = some u) :
    t < u ∧ s.fires (clk.read u) = true ∧
      ∀ v, t < v → v < u → s.fires (clk.read v) = false :=
  let ⟨h1, h2, h3⟩ := firstFrom_spec h
  ⟨h1, h2, fun v hv => h3 v hv⟩

/-- Each run is a firing after the start. -/
theorem SpecSchedule.runs_fires :
    ∀ {k u : Nat}, s.runs clk start k = some u → start < u ∧ s.fires (clk.read u) = true
  | 0, _, h => ⟨(SpecSchedule.next_spec h).1, (SpecSchedule.next_spec h).2.1⟩
  | k + 1, u, h => by
    obtain ⟨t, ht, hu⟩ := Option.bind_eq_some.mp h
    exact ⟨(SpecSchedule.runs_fires ht).1.trans (SpecSchedule.next_spec hu).1,
      (SpecSchedule.next_spec hu).2.1⟩

/-- When `Next` always finds a time, the `k`-th run exists, lies more than `k`
seconds after the start, and every firing after the start up to it is one of the
runs so far: the runner skips no firing. -/
theorem SpecSchedule.runs_cover (hnext : ∀ t, ∃ u, s.next clk t = some u) :
    ∀ k, ∃ u, s.runs clk start k = some u ∧ start + k < u ∧
      ∀ v, start < v → v ≤ u → s.fires (clk.read v) = true →
        ∃ j ≤ k, s.runs clk start j = some v
  | 0 => by
    obtain ⟨u, hu⟩ := hnext start
    obtain ⟨hsu, -, hmin⟩ := SpecSchedule.next_spec hu
    refine ⟨u, hu, by omega, fun v hv hvu hf => ⟨0, le_rfl, ?_⟩⟩
    rcases Nat.lt_or_eq_of_le hvu with hlt | rfl
    · rw [hmin v hv hlt] at hf; cases hf
    · exact hu
  | k + 1 => by
    obtain ⟨t, ht, hkt, hcov⟩ := SpecSchedule.runs_cover hnext k
    obtain ⟨u, hu⟩ := hnext t
    obtain ⟨htu, -, hmin⟩ := SpecSchedule.next_spec hu
    have hk : s.runs clk start (k + 1) = some u := by rw [SpecSchedule.runs, ht]; exact hu
    refine ⟨u, hk, by omega, fun v hv hvu hf => ?_⟩
    rcases Nat.lt_or_ge t v with htv | hvt
    · rcases Nat.lt_or_eq_of_le hvu with hlt | rfl
      · rw [hmin v htv hlt] at hf; cases hf
      · exact ⟨k + 1, le_rfl, hk⟩
    · obtain ⟨j, hj, hjv⟩ := hcov v hv hvt hf
      exact ⟨j, by omega, hjv⟩

/-- When `Next` always finds a time, the runs are exactly the firings after the
start. -/
theorem SpecSchedule.runs_iff (hnext : ∀ t, ∃ u, s.next clk t = some u) (t : Nat) :
    (∃ k, s.runs clk start k = some t) ↔ start < t ∧ s.fires (clk.read t) = true := by
  refine ⟨fun ⟨_, hk⟩ => SpecSchedule.runs_fires hk, fun ⟨hst, hf⟩ => ?_⟩
  obtain ⟨u, -, htu, hcov⟩ := SpecSchedule.runs_cover hnext t
  obtain ⟨j, -, hj⟩ := hcov t hst (by omega) hf
  exact ⟨j, hj⟩

end

end Cron

/-! ## The schedule of `Sync` -/

open Cron

/-- The spec `Sync` hands to `AddFunc`, `fmt.Sprintf("*/%d * * * *", rs.Interval)`. -/
def cronSpec (interval : UInt32) : GoString := lit "*/" ++ decimal interval.toNat ++ lit " * * * *"

/-- The schedule of the job `Sync` adds, `none` when `AddFunc` refuses the spec
(an error `Sync` discards). -/
def Sync.cronSchedule (rs : Sync) : Option Schedule := (parse (cronSpec rs.Interval)).toOption

/-- What `Parse` makes of `*/n * * * *`: every `n`-th second of every minute. -/
def stepSchedule (n : Nat) : SpecSchedule :=
  ⟨getBits 0 59 n ||| starBit, all minutes, all hours, all dom, all months, all dow⟩

theorem asciiSpace_of_isDigit {c : UInt8} (h : isDigit c = true) : asciiSpace c = false := by
  have := (isDigit_value h).2
  simp only [asciiSpace, decide_eq_false_iff_not]
  rintro (rfl | rfl | rfl | rfl | rfl | rfl) <;> revert this <;> decide

/-- The spec splits into the step field and four `*` fields. -/
theorem fields_cronSpec (interval : UInt32) :
    fields (cronSpec interval) =
      [lit "*/" ++ decimal interval.toNat, lit "*", lit "*", lit "*", lit "*"] := by
  have hsp : ∀ c ∈ lit "*/" ++ decimal interval.toNat, asciiSpace c = false := by
    have h1 : ∀ c ∈ lit "*/", asciiSpace c = false := by decide
    intro c hc
    rcases List.mem_append.mp hc with hc | hc
    · exact h1 c hc
    · exact asciiSpace_of_isDigit (decimal_digits _ c hc)
  rw [fields, cronSpec, show lit " * * * *" = ' '.toUInt8 :: lit "* * * *" from rfl,
    splitBy_append_cons _ hsp (by decide)]
  have hne : lit "*/" ++ decimal interval.toNat ≠ [] := by simp [lit]
  have htail :
      splitBy asciiSpace (lit "* * * *") = [lit "*", lit "*", lit "*", lit "*"] := by decide
  simp [htail, hne]
  decide

/-- `Parse` refuses the spec of interval 0, and reads any other interval `n` as
`stepSchedule n`. -/
theorem parse_cronSpec (interval : UInt32) :
    parse (cronSpec interval) =
      if interval.toNat = 0 then .error (stepError (lit "*/0"))
      else .ok (.spec (stepSchedule interval.toNat)) := by
  have hlt : interval.toNat < 9223372036854775808 := by
    have := interval.toNat_lt_size; simp only [UInt32.size] at this; omega
  have hne : cronSpec interval ≠ [] := by simp [cronSpec, lit]
  have hhead : (cronSpec interval).head? = some '*'.toUInt8 := by simp [cronSpec, lit]
  simp only [parse, hne, hhead, if_false, fields_cronSpec, List.length_cons, List.length_nil,
    expandFields, defaults, List.drop, List.cons_append, List.nil_append, List.getD_cons_zero,
    List.getD_cons_succ, getField_everyStep seconds (by decide) hlt,
    getField_star minutes (by decide), getField_star hours (by decide),
    getField_star dom (by decide), getField_star months (by decide), getField_star dow (by decide)]
  rw [if_neg (by decide), if_neg (by decide)]
  split_ifs with h0
  · simp only [h0]; rfl
  · rfl

/-- The schedule of interval `n` fires exactly at the seconds that are multiples of
`n`, in every minute, hour, day and month. -/
theorem stepSchedule_fires (clk : Clock) {n : Nat} (hn : 0 < n) (t : Nat) :
    (stepSchedule n).fires (clk.read t) = decide (n ∣ t % 60) := by
  have hsec : (getBits 0 59 n ||| starBit).getLsbD (t % 60) = decide (n ∣ t % 60) := by
    have h60 : t % 60 < 60 := Nat.mod_lt _ (by omega)
    rw [Bool.eq_iff_iff, BitVec.getLsbD_or, Bool.or_eq_true, getBits_getLsbD hn (by omega), starBit,
      getLsbD_one_shiftLeft]
    simp only [Nat.sub_zero, Bool.and_eq_true, decide_eq_true_eq]
    omega
  have hall : ∀ (r : Bounds) (j : Nat), r.max < 63 → r.min ≤ j → j ≤ r.max →
      (all r).getLsbD j = true :=
    fun _ _ hmax h1 h2 => (all_getLsbD hmax _).mpr (.inl ⟨h1, h2⟩)
  have hm := clk.month_mem t
  have hd := clk.day_mem t
  simp only [SpecSchedule.fires, dayMatches, stepSchedule, meets_one_shiftLeft, meets_starBit,
    clk.second_eq, hsec,
    hall months _ (by decide) hm.1 hm.2, hall dom _ (by decide) hd.1 hd.2,
    hall dow _ (by decide) (Nat.zero_le _) (Nat.le_of_lt_succ (clk.weekday_lt t)),
    hall hours _ (by decide) (Nat.zero_le _) (Nat.le_of_lt_succ (clk.hour_lt t)),
    hall minutes _ (by decide) (Nat.zero_le _) (Nat.le_of_lt_succ (clk.minute_lt t)),
    (all_getLsbD (r := dom) (by decide) 63).mpr (.inr rfl), Bool.true_or, if_true, Bool.true_and]

/-- The wait from a run at `t` to the next, for the schedule of interval `n`: `n`
within the minute, and after the last multiple of `n` in the minute, up to the
next minute's second 0. -/
def gap (n t : Nat) : Nat := if t % 60 + n < 60 then n else 60 - t % 60

theorem gap_pos {n : Nat} (hn : 0 < n) (t : Nat) : 0 < gap n t := by
  have := Nat.mod_lt t (by omega : 60 > 0)
  unfold gap; split <;> omega

/-- A multiple of `n` plus less than `n` is not a multiple of `n`. -/
theorem not_dvd_add_of_lt {n a e : Nat} (ha : n ∣ a) (h0 : 0 < e) (h1 : e < n) : ¬n ∣ a + e :=
  fun h => absurd (Nat.le_of_dvd h0 ((Nat.dvd_add_right ha).mp h)) (by omega)

/-- After a run at a second that is a multiple of `n`, the next run is `gap n t`
later. -/
theorem stepSchedule_next (clk : Clock) {n t : Nat} (hn : 0 < n) (ht : n ∣ t % 60) :
    (stepSchedule n).next clk t = some (t + gap n t) := by
  have hpos := gap_pos hn t
  have h60 := Nat.mod_lt t (by omega : 60 > 0)
  have hgap : gap n t ≤ n ∧ gap n t ≤ 60 - t % 60 ∧ n ∣ (t + gap n t) % 60 := by
    unfold gap
    split_ifs with h
    · refine ⟨le_rfl, by omega, ?_⟩
      rw [show (t + n) % 60 = t % 60 + n by omega]
      exact Nat.dvd_add ht (Nat.dvd_refl n)
    · refine ⟨by omega, le_rfl, ?_⟩
      rw [show (t + (60 - t % 60)) % 60 = 0 by omega]
      exact Nat.dvd_zero n
  have hfire := stepSchedule_fires clk hn
  have h := firstFrom_eq (p := fun u => (stepSchedule n).fires (clk.read u)) (t := t + 1)
    (d := gap n t - 1)
    (by simp only [hfire, decide_eq_true_eq]; rw [show t + 1 + (gap n t - 1) = t + gap n t by omega]
        exact hgap.2.2)
    (fun e he => by
      simp only [hfire, decide_eq_false_iff_not]
      rw [show (t + 1 + e) % 60 = t % 60 + (e + 1) by omega]
      exact not_dvd_add_of_lt ht (by omega) (by omega))
    (show gap n t - 1 < horizon by unfold horizon; omega)
  rw [SpecSchedule.next, h, show t + 1 + (gap n t - 1) = t + gap n t by omega]

/-- From any time, the schedule of a positive interval runs again, at a multiple
of `n`. -/
theorem stepSchedule_next_exists (clk : Clock) {n : Nat} (hn : 0 < n) (t : Nat) :
    ∃ u, (stepSchedule n).next clk t = some u ∧ t < u ∧ n ∣ u % 60 := by
  have h60 := Nat.mod_lt t (by omega : 60 > 0)
  obtain ⟨e, -, he, hpe⟩ := firstFrom_exists (p := fun u => (stepSchedule n).fires (clk.read u))
    (t := t + 1) (d := 59 - t % 60)
    (by simp only [stepSchedule_fires clk hn, decide_eq_true_eq]
        rw [show (t + 1 + (59 - t % 60)) % 60 = 0 by omega]; exact Nat.dvd_zero n)
    (show 59 - t % 60 < horizon by unfold horizon; omega)
  simp only [stepSchedule_fires clk hn, decide_eq_true_eq] at hpe
  exact ⟨t + 1 + e, he, by omega, hpe⟩

/-- Every run of the schedule of a positive interval exists, after the start, at
a multiple of `n`. -/
theorem stepSchedule_runs (clk : Clock) {n : Nat} (hn : 0 < n) (start : Nat) :
    ∀ k, ∃ t, (stepSchedule n).runs clk start k = some t ∧ start < t ∧ n ∣ t % 60
  | 0 => stepSchedule_next_exists clk hn start
  | k + 1 => by
    obtain ⟨t, ht, hst, hdvd⟩ := stepSchedule_runs clk hn start k
    obtain ⟨u, hu, htu, hdvd'⟩ := stepSchedule_next_exists clk hn t
    exact ⟨u, by simp [SpecSchedule.runs, ht, hu], by omega, hdvd'⟩

/-- When `n` divides 60, every wait is `n`. -/
theorem gap_of_dvd {n t : Nat} (h60 : n ∣ 60) (ht : n ∣ t % 60) : gap n t = n := by
  have hlt := Nat.mod_lt t (by omega : 60 > 0)
  unfold gap
  split_ifs with h
  · rfl
  · have hd : n ∣ 60 - t % 60 := Nat.dvd_sub' h60 ht
    have := Nat.le_of_dvd (by omega) hd
    omega

/-- The run after a run at `t` comes `gap n t` later. -/
theorem stepSchedule_runs_succ (clk : Clock) {n : Nat} (hn : 0 < n) {start k t : Nat}
    (ht : (stepSchedule n).runs clk start k = some t) :
    n ∣ t % 60 ∧ (stepSchedule n).runs clk start (k + 1) = some (t + gap n t) := by
  obtain ⟨t', ht', -, hdvd⟩ := stepSchedule_runs clk hn start k
  obtain rfl : t = t' := Option.some.inj (ht.symm.trans ht')
  exact ⟨hdvd, by simp [SpecSchedule.runs, ht, stepSchedule_next clk hn hdvd]⟩

/-- When every run follows the one before by `n`, `n` divides 60: the run after
the last multiple `L` of `n` in a minute comes `60 - L` later. -/
theorem dvd_sixty_of_runs {clk : Clock} {n : Nat} (hn : 0 < n)
    (hall : ∀ start k t, (stepSchedule n).runs clk start k = some t →
      (stepSchedule n).runs clk start (k + 1) = some (t + n)) : n ∣ 60 := by
  obtain ⟨q, hq⟩ : ∃ q, q = 59 / n := ⟨_, rfl⟩
  have hdiv : n * q + 59 % n = 59 := hq ▸ Nat.div_add_mod 59 n
  have hmod : 59 % n < n := Nat.mod_lt 59 hn
  have hL : n ∣ (n * q + 60) % 60 := by
    rw [show (n * q + 60) % 60 = n * q by omega]; exact ⟨q, rfl⟩
  have h0 : (stepSchedule n).runs clk (n * q + 59) 0 = some (n * q + 60) :=
    SpecSchedule.next_eq_succ (by rw [stepSchedule_fires clk hn]; exact decide_eq_true hL)
  have h1 := (stepSchedule_runs_succ clk hn h0).2
  rw [hall _ 0 _ h0, Option.some.injEq] at h1
  have hgap : gap n (n * q + 60) = 60 - n * q := by
    unfold gap; rw [if_neg (by omega)]; omega
  rw [show 60 = n * q + n by omega]
  exact Nat.dvd_add ⟨q, rfl⟩ (Nat.dvd_refl n)

/-- The schedule `Sync` installs, for every interval. An interval of zero is
refused by the parser, so no job is added. Any other interval `n` is read as a
*seconds* field `*/n`: the job fires at the seconds of each minute that are
multiples of `n`, and from any start it runs at exactly those seconds after the
start, first at the first of them. Each run at `t` is followed by one `gap n t`
later (`n` within a minute, and up to the next minute's second 0 after the last
multiple below 60), and every run is `n` seconds after the one before exactly when
`n` divides 60. -/
theorem cronSchedule_runs (clk : Clock) (rs : Sync) :
    (rs.Interval = 0 →
      parse (cronSpec rs.Interval) = .error (stepError (lit "*/0")) ∧ rs.cronSchedule = none) ∧
    (0 < rs.Interval → ∃ s, rs.cronSchedule = some (.spec s) ∧
      (∀ t, s.fires (clk.read t) = decide (rs.Interval.toNat ∣ t % 60)) ∧
      (∀ start t, (∃ k, s.runs clk start k = some t) ↔
        start < t ∧ rs.Interval.toNat ∣ t % 60) ∧
      (∀ start, ∃ t, s.runs clk start 0 = some t ∧ start < t ∧
        rs.Interval.toNat ∣ t % 60 ∧
        ∀ u, start < u → u < t → ¬rs.Interval.toNat ∣ u % 60) ∧
      (∀ start k, ∃ t, s.runs clk start k = some t ∧ start < t ∧
        rs.Interval.toNat ∣ t % 60 ∧ 0 < gap rs.Interval.toNat t ∧
        s.runs clk start (k + 1) = some (t + gap rs.Interval.toNat t)) ∧
      ((∀ start k t, s.runs clk start k = some t →
          s.runs clk start (k + 1) = some (t + rs.Interval.toNat)) ↔
        rs.Interval.toNat ∣ 60)) := by
  refine ⟨fun h0 => ?_, fun hpos => ?_⟩
  · have hp := parse_cronSpec rs.Interval
    rw [if_pos (by rw [h0]; rfl)] at hp
    exact ⟨hp, by simp [Sync.cronSchedule, hp, Except.toOption]⟩
  · have hn : 0 < rs.Interval.toNat := hpos
    have hp := parse_cronSpec rs.Interval
    rw [if_neg (by omega)] at hp
    have hfire := stepSchedule_fires clk hn
    have hnext (t : Nat) : ∃ u, (stepSchedule rs.Interval.toNat).next clk t = some u :=
      (stepSchedule_next_exists clk hn t).imp fun _ h => h.1
    refine ⟨stepSchedule rs.Interval.toNat, by simp [Sync.cronSchedule, hp, Except.toOption],
      hfire, fun start t => ?_, fun start => ?_, fun start k => ?_,
      ⟨dvd_sixty_of_runs hn, fun h60 start k t ht => ?_⟩⟩
    · rw [SpecSchedule.runs_iff hnext, hfire, decide_eq_true_iff]
    · obtain ⟨t, ht, hst, hdvd⟩ := stepSchedule_next_exists clk hn start
      have hmin := (SpecSchedule.next_spec ht).2.2
      exact ⟨t, ht, hst, hdvd, fun u h1 h2 => by simpa [hfire] using hmin u h1 h2⟩
    · obtain ⟨t, ht, hst, hdvd⟩ := stepSchedule_runs clk hn start k
      exact ⟨t, ht, hst, hdvd, gap_pos hn t, (stepSchedule_runs_succ clk hn ht).2⟩
    · obtain ⟨hdvd, h⟩ := stepSchedule_runs_succ clk hn ht
      rwa [gap_of_dvd h60 hdvd] at h

/-- The schedule of `interval` seen as a fixed period: the spec parses, and from
every start each run is followed by one `interval` seconds later. -/
def RunsEvery (clk : Clock) (interval : UInt32) : Prop :=
  ∃ s, parse (cronSpec interval) = .ok (.spec s) ∧
    ∀ start k, ∃ t, s.runs clk start k = some t ∧
      s.runs clk start (k + 1) = some (t + interval.toNat)

/-- At interval 7 the run at second 56 is followed by one at second 0 of the next
minute, 4 seconds later; interval 0 is refused. -/
theorem schedule_counterexample : ¬RunsEvery Clock.utc 7 ∧ ¬RunsEvery Clock.utc 0 := by
  constructor
  · rintro ⟨s, hs, hruns⟩
    rw [parse_cronSpec, if_neg (by decide)] at hs
    obtain rfl : stepSchedule 7 = s := by simpa using hs
    have h0 : (stepSchedule 7).runs Clock.utc 49 0 = some 56 :=
      stepSchedule_next Clock.utc (t := 49) (by decide) (by decide)
    have h1 : (stepSchedule 7).runs Clock.utc 49 1 = some 60 :=
      (stepSchedule_runs_succ Clock.utc (by decide) h0).2
    obtain ⟨t, ht0, ht1⟩ := hruns 49 0
    rw [h0, Option.some.injEq] at ht0
    subst ht0
    rw [h1, Option.some.injEq] at ht1
    revert ht1; decide
  · rintro ⟨s, hs, -⟩
    rw [parse_cronSpec, if_pos (by decide)] at hs
    cases hs

end RedisSync
