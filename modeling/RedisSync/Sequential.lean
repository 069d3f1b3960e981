import RedisSync.Delivery

/-!
# One goroutine at a time: the service refines the sequential model

`Cycle` reads `Sync` as a sequential program: the initial fetch and its send, then
one cron cycle after another, each an atomic `cronCycle` (`syncEvents`). Under
`Service.Start` the same code runs as goroutines (`Run`). When the cron fires each
job only after the previous one has finished and `processSyncData` has taken what
it sent, and no resync goroutine is scheduled, the consumer takes exactly the
events of the sequential model, in order (`Run.deliveries_sequentialActions`): on
these schedules the interleaved model refines `Cycle`, and what `Cycle` proves
about the events carries over to the service. What the other interleavings add is
the subject of `Jobs` and `Service`.

The proof follows one job through its five steps on a run that is otherwise still
(`CycleReady.written`), against `cronCycle`; it also gives the provider the run
leaves, that of the sequential model (`syncFinal`). On these schedules change
detection stays in step with the consumer: `LastSHA` ends as the fingerprint of
the last document `processSyncData` took (`Run.lastSHA_sequentialActions`).
-/

namespace RedisSync

/-! ## The sequential schedule -/

/-- The `k`-th cron job run alone: the cron fires it, it takes its five steps with
Redis answering `r`, and the consumer takes what it sent. -/
def cycleActions (k : Nat) (r : Replies) : List Action :=
  [.fire, .job k r, .job k r, .job k r, .job k r, .job k r, .receive]

/-- Cron cycles one after another, the first as job `k`. -/
def cyclesActions : Nat → List Replies → List Action
  | _, [] => []
  | k, r :: rest => cycleActions k r ++ cyclesActions (k + 1) rest

/-- `Sync`'s initial fetch, its send and the consumer's taking of it, then the cron
cycles one after another. -/
def sequentialActions (r₀ : Replies) (cycles : List Replies) : List Action :=
  [.syncFetch r₀, .syncSend, .receive] ++ cyclesActions 0 cycles

variable {hk : Hooks}

theorem Run.deliveries_append (s : Run) (a b : List Action) :
    s.deliveries hk (a ++ b) = s.deliveries hk a ++ (s.run hk a).deliveries hk b := by
  induction a generalizing s with
  | nil => rfl
  | cons x a ih => simp [Run.deliveries, ih]

/-! ## One job, alone -/

/-- `s` with one more cron job, in state `j`, and the provider `rs`. -/
def Run.withJob (s : Run) (j : CronJob) (rs : Sync) : Run :=
  { s with jobs := s.jobs ++ [j], rs := rs }

theorem Run.withJob_step (s : Run) {j : CronJob} (hns : ∀ ev, j ≠ .sending ev) (rs : Sync)
    (r : Replies) :
    (s.withJob j rs).step hk (.job s.jobs.length r) =
      s.withJob (j.step hk r rs).1 (j.step hk r rs).2.1 := by
  cases j with
  | sending ev => exact absurd rfl (hns ev)
  | _ => simp [Run.withJob, Run.step, Run.jobStep, List.set_append_right]

theorem Run.withJob_step_sending (s : Run) (hd : s.dataSync = []) (ev : DataSync) (rs : Sync)
    (r : Replies) :
    (s.withJob (.sending ev) rs).step hk (.job s.jobs.length r) =
      { s.withJob .done rs with dataSync := [ev], trace := s.trace ++ [.sent ev] } := by
  simp [Run.withJob, Run.step, Run.jobStep, hd, List.set_append_right]

/-- `processSyncData` takes the one buffered event; only the resyncs may grow. -/
theorem Run.receive_sent (hk : Hooks) (t : Run) (hc : t.consumerDone = false) (ev : DataSync)
    (trace : List Happening) :
    ∃ resyncs, ({ t with dataSync := [ev], trace := trace } : Run).step hk .receive =
      { t with dataSync := [], trace := trace, resyncs := resyncs } := by
  simp only [Run.step, Run.receive, hc, Bool.false_eq_true, if_false]
  split <;> exact ⟨_, rfl⟩

theorem cronCycle_fst (r : Replies) (rs : Sync) :
    (cronCycle hk r rs).1 = rs.record hk (fetchResult hk r) := by
  simp [cronCycle, fetchData_eq]

theorem cronCycle_schedule (r : Replies) (rs : Sync) :
    (cronCycle hk r rs).1.cronSchedule = rs.cronSchedule := by
  simp [cronCycle_fst, Sync.cronSchedule]

/-- A job's comparison leaves it sending what `cronCycle` sends. -/
theorem CronJob.step_written (r r' : Replies) (rs : Sync) :
    (CronJob.step hk r' (cronCycle hk r rs).1 (.written rs.LastSHA (fetchResult hk r))).1 =
      ((cronCycle hk r rs).2.map .sending).getD .done := by
  simp only [cronCycle, fetchData_eq]
  rcases fetchResult hk r with _ | p
  · rfl
  · by_cases hp : p = []
    · simp [CronJob.step, hp]
    · simp only [CronJob.step, Sync.record_URI, hp, if_false]
      split_ifs <;> simp_all

theorem CronJob.step_written_snd (r : Replies) (rs : Sync) (prev : GoString)
    (res : Except GoError GoString) : (CronJob.step hk r rs (.written prev res)).2.1 = rs := by
  rcases res with _ | d
  · rfl
  · simp only [CronJob.step]; split_ifs <;> rfl

/-- A run between cycles: the cron on with a schedule, the channel empty, the
consumer running. -/
structure CycleReady (s : Run) : Prop where
  cronOn : s.cronOn = true
  schedule : s.rs.cronSchedule.isSome = true
  empty : s.dataSync = []
  consumer : s.consumerDone = false

/-- Fired and taken through its fetch and comparison, a job alone is about to send
what `cronCycle` sends, on the provider `cronCycle` leaves. -/
theorem CycleReady.written {s : Run} (h : CycleReady s) (r : Replies) :
    s.run hk [.fire, .job s.jobs.length r, .job s.jobs.length r, .job s.jobs.length r,
        .job s.jobs.length r] =
      s.withJob (((cronCycle hk r s.rs).2.map .sending).getD .done) (cronCycle hk r s.rs).1 := by
  have h1 : s.step hk .fire = s.withJob .start s.rs := by
    simp [Run.step, Run.withJob, h.cronOn, h.schedule]
  simp only [Run.run_cons, Run.run_nil, h1]
  rw [Run.withJob_step s (by simp), Run.withJob_step s (by simp [CronJob.step]),
    Run.withJob_step s (by simp [CronJob.step]), Run.withJob_step s (by simp [CronJob.step])]
  simp only [CronJob.step.eq_1, CronJob.step.eq_2, CronJob.step.eq_3, CronJob.step_written_snd]
  rw [← cronCycle_fst, CronJob.step_written]

/-- One cron cycle run alone: the consumer takes what `cronCycle` sends, the
provider ends as `cronCycle` leaves it, and the run is ready for the next. -/
theorem CycleReady.cycle {s : Run} (h : CycleReady s) (r : Replies) :
    s.deliveries hk (cycleActions s.jobs.length r) = (cronCycle hk r s.rs).2.toList ∧
      CycleReady (s.run hk (cycleActions s.jobs.length r)) ∧
      (s.run hk (cycleActions s.jobs.length r)).rs = (cronCycle hk r s.rs).1 ∧
      (s.run hk (cycleActions s.jobs.length r)).jobs.length = s.jobs.length + 1 := by
  have hsplit : cycleActions s.jobs.length r = [.fire, .job s.jobs.length r,
      .job s.jobs.length r, .job s.jobs.length r, .job s.jobs.length r] ++
      [.job s.jobs.length r, .receive] := rfl
  have hfirst : s.deliveries hk [.fire, .job s.jobs.length r, .job s.jobs.length r,
      .job s.jobs.length r, .job s.jobs.length r] = [] := rfl
  rw [hsplit, Run.deliveries_append, Run.run_append, h.written r, hfirst, List.nil_append]
  have hready : CycleReady (s.withJob .done (cronCycle hk r s.rs).1) :=
    ⟨h.cronOn, by simpa [Run.withJob, cronCycle_schedule] using h.schedule, h.empty, h.consumer⟩
  have hlen : (s.withJob .done (cronCycle hk r s.rs).1).jobs.length = s.jobs.length + 1 := by
    simp [Run.withJob]
  cases (cronCycle hk r s.rs).2 with
  | none =>
    have hstep : (s.withJob .done (cronCycle hk r s.rs).1).step hk (.job s.jobs.length r) =
        s.withJob .done (cronCycle hk r s.rs).1 := Run.withJob_step s (by simp) _ r
    have hrecv : (s.withJob .done (cronCycle hk r s.rs).1).step hk .receive =
        s.withJob .done (cronCycle hk r s.rs).1 := by
      simp [Run.step, Run.receive, Run.withJob, h.empty]
    simp only [Option.map_none', Option.getD_none, Run.deliveries, Run.delivered, hstep,
      Run.run_cons, Run.run_nil, hrecv]
    exact ⟨by simp [Run.withJob, h.empty], hready, rfl, hlen⟩
  | some ev =>
    have hstep :
        (s.withJob (.sending ev) (cronCycle hk r s.rs).1).step hk (.job s.jobs.length r) =
        { s.withJob .done (cronCycle hk r s.rs).1 with
          dataSync := [ev], trace := s.trace ++ [.sent ev] } :=
      Run.withJob_step_sending s h.empty ev _ r
    obtain ⟨resyncs, hrecv⟩ :=
      Run.receive_sent hk (s.withJob .done (cronCycle hk r s.rs).1) h.consumer ev
        (s.trace ++ [.sent ev])
    simp only [Option.map_some', Option.getD_some, Run.deliveries, Run.delivered, hstep,
      Run.run_cons, Run.run_nil, hrecv]
    exact ⟨by simp [Run.withJob, h.consumer], ⟨hready.cronOn, hready.schedule, rfl,
      hready.consumer⟩, rfl, hlen⟩

/-! ## Whole runs -/

theorem CycleReady.cycles (cycles : List Replies) : ∀ {s : Run}, CycleReady s →
    s.deliveries hk (cyclesActions s.jobs.length cycles) = (cronRun hk s.rs cycles).2 ∧
      (s.run hk (cyclesActions s.jobs.length cycles)).rs = (cronRun hk s.rs cycles).1 := by
  induction cycles with
  | nil => intro s _; exact ⟨rfl, rfl⟩
  | cons r rest ih =>
    intro s h
    obtain ⟨hdel, hready, hrs, hlen⟩ := @CycleReady.cycle hk s h r
    rw [cyclesActions, Run.deliveries_append, Run.run_append, hdel, ← hlen, (ih hready).1,
      (ih hready).2, hrs]
    exact ⟨rfl, rfl⟩

/-- With the cron off and nothing buffered, a cron cycle does nothing. -/
theorem Run.cycle_idle {s : Run} (hon : s.cronOn = false) (hj : s.jobs = [])
    (hd : s.dataSync = []) (k : Nat) (r : Replies) :
    s.run hk (cycleActions k r) = s ∧ s.deliveries hk (cycleActions k r) = [] := by
  have hfire : s.step hk .fire = s := by simp [Run.step, hon]
  have hjob : s.step hk (.job k r) = s := by simp [Run.step, Run.jobStep, hj]
  have hrecv : s.step hk .receive = s := by simp [Run.step, Run.receive, hd]
  simp [cycleActions, Run.deliveries, Run.delivered, hfire, hjob, hrecv, hd]

theorem Run.cycles_idle {s : Run} (hon : s.cronOn = false) (hj : s.jobs = [])
    (hd : s.dataSync = []) (cycles : List Replies) :
    ∀ k, s.run hk (cyclesActions k cycles) = s ∧
      s.deliveries hk (cyclesActions k cycles) = [] := by
  induction cycles with
  | nil => intro; exact ⟨rfl, rfl⟩
  | cons r rest ih =>
    intro k
    obtain ⟨hrun, hdel⟩ := @Run.cycle_idle hk _ hon hj hd k r
    obtain ⟨hrun', hdel'⟩ := ih (k + 1)
    rw [cyclesActions, Run.run_append, Run.deliveries_append, hrun, hdel, hrun', hdel']
    exact ⟨rfl, rfl⟩

/-- The provider a sequential run of `Sync` leaves: that of its failed initial
fetch, or that of its last cron cycle. -/
def syncFinal (hk : Hooks) (rs : Sync) (r₀ : Replies) (cycles : List Replies) : Sync :=
  match initialSync hk r₀ rs with
  | (rs, .error _) => rs
  | (rs, .ok _) => (cronRun hk rs cycles).1

/-- On the sequential schedule the service takes the events of `syncEvents` and
ends with the provider of `syncFinal`. -/
theorem Run.sequentialActions_spec (hk : Hooks) (rs : Sync) (hint : rs.Interval ≠ 0)
    (r₀ : Replies) (cycles : List Replies) :
    (Run.start rs).deliveries hk (sequentialActions r₀ cycles) = syncEvents hk rs r₀ cycles ∧
      ((Run.start rs).run hk (sequentialActions r₀ cycles)).rs = syncFinal hk rs r₀ cycles := by
  have hsch : ∀ rs' : Sync, rs'.Interval = rs.Interval → rs'.cronSchedule.isSome = true := by
    intro rs' h
    have : rs.Interval.toNat ≠ 0 := fun h0 => hint (UInt32.toNat.inj h0)
    simp [Sync.cronSchedule, h, parse_cronSpec, this, Except.toOption]
  rw [sequentialActions, Run.deliveries_append, Run.run_append]
  simp only [syncEvents, syncFinal, initialSync, fetchAndEmit_eq]
  rcases hres : fetchResult hk r₀ with err | p
  · simp only [Run.deliveries, Run.delivered, Run.run_cons, Run.run_nil, Run.step, Run.syncFetch,
      Run.start, Run.receive, fetchAndEmit_eq, hres, Sync.record_error, Option.toList_none,
      Option.none_orElse, ↓reduceIte, Bool.false_eq_true, List.head?_nil, List.nil_append,
      List.append_nil]
    exact ⟨(Run.cycles_idle rfl rfl rfl cycles 0).2,
      congrArg Run.rs (Run.cycles_idle rfl rfl rfl cycles 0).1⟩
  · by_cases hp : p = []
    · simp only [Run.deliveries, Run.delivered, Run.run_cons, Run.run_nil, Run.step,
        Run.syncFetch, Run.start, Run.receive, fetchAndEmit_eq, hres, hp, Sync.record_nil,
        Option.toList_none, ↓reduceIte, Bool.false_eq_true, List.head?_nil, List.nil_append,
        List.append_nil]
      exact CycleReady.cycles cycles ⟨rfl, hsch _ rfl, rfl, rfl⟩
    · simp only [Run.deliveries, Run.delivered, Run.run_cons, Run.run_nil, Run.step,
        Run.syncFetch, Run.start, fetchAndEmit_eq, hres, hp, Sync.record_URI,
        Sync.record_Interval, Option.toList_none, Option.toList_some, ↓reduceIte,
        Bool.false_eq_true, List.length_nil, Nat.lt_add_one, List.head?_cons, List.nil_append,
        List.singleton_append, List.cons.injEq, true_and, Run.receive]
      split <;> exact CycleReady.cycles cycles ⟨rfl, hsch _ rfl, rfl, rfl⟩

/-- Scheduled one goroutine step at a time, with each cron job run to the end and
its event taken before the next job fires, and no resync scheduled, the service
hands the store exactly the events of the sequential model `syncEvents`, in order:
none when the initial fetch fails, else the initial document's event, if any,
then the event of each cron cycle that finds a change. A non-zero interval is
what lets the cron add its job at all. -/
theorem Run.deliveries_sequentialActions (hk : Hooks) (rs : Sync) (hint : rs.Interval ≠ 0)
    (r₀ : Replies) (cycles : List Replies) :
    (Run.start rs).deliveries hk (sequentialActions r₀ cycles) =
      syncEvents hk rs r₀ cycles :=
  (Run.sequentialActions_spec hk rs hint r₀ cycles).1

/-- Two cron cycles after the initial fetch, on a provider polling every thirty
seconds, hand the store what the sequential model sends. -/
theorem deliveries_sequential_v1_v2 :
    ({ (default : Sync) with Interval := 30 } : Sync).Interval ≠ 0 ∧
      (Run.start { (default : Sync) with Interval := 30 }).deliveries (Hooks.plain false)
          (sequentialActions (.ofJSON (lit "v1")) [.ofJSON (lit "v1"), .ofJSON (lit "v2")]) =
        syncEvents (Hooks.plain false) { (default : Sync) with Interval := 30 }
          (.ofJSON (lit "v1")) [.ofJSON (lit "v1"), .ofJSON (lit "v2")] :=
  ⟨by decide, Run.deliveries_sequentialActions _ _ (by decide) _ _⟩

/-! ## Change detection follows what the consumer took -/

/-- One cron cycle from a provider whose `LastSHA` is the fingerprint of the last of
the events sent so far, `evs`, keeps it so, with the event it sends, if any. -/
theorem SeenLast.cronCycle_sent {evs : List DataSync} {rs : Sync}
    (h : SeenLast hk (evs.getLast?.map DataSync.FlagData) rs) (r : Replies) :
    SeenLast hk ((evs ++ (cronCycle hk r rs).2.toList).getLast?.map DataSync.FlagData)
      (cronCycle hk r rs).1 := by
  obtain ⟨hinv, -, hev⟩ := cronCycle_spec h r
  rw [hev]
  generalize fetchResult hk r = res at hinv
  rcases res with _ | p
  · simpa using hinv
  · by_cases hp : p = []
    · simpa [advance, hp] using hinv
    · simp only [advance, hp, if_false] at hinv
      simp only [hp, if_false, newsEvent]
      split_ifs with hn
      · simpa using hinv
      · have hq : lastSHA hk (evs.getLast?.map DataSync.FlagData) = generateSHA hk p := by
          rw [isNews_iff, not_or, not_not] at hn
          exact hn.2
        simpa using hinv.trans hq.symm

theorem SeenLast.cronRun_sent (cycles : List Replies) :
    ∀ {evs : List DataSync} {rs : Sync}, SeenLast hk (evs.getLast?.map DataSync.FlagData) rs →
      SeenLast hk ((evs ++ (cronRun hk rs cycles).2).getLast?.map DataSync.FlagData)
        (cronRun hk rs cycles).1 := by
  induction cycles with
  | nil => intro evs rs h; simpa [cronRun] using h
  | cons r rest ih =>
    intro evs rs h
    simpa [cronRun, List.append_assoc] using ih (h.cronCycle_sent r)

/-- A sequential run of `Sync` from a provider that has seen nothing ends with
`LastSHA` the fingerprint of the last event it sent. -/
theorem syncFinal_seenLast (hk : Hooks) {rs : Sync} (h0 : rs.LastSHA = []) (r₀ : Replies)
    (cycles : List Replies) :
    SeenLast hk (((syncEvents hk rs r₀ cycles).getLast?).map DataSync.FlagData)
      (syncFinal hk rs r₀ cycles) := by
  simp only [syncEvents, syncFinal, initialSync, fetchAndEmit_eq]
  rcases fetchResult hk r₀ with e | p
  · exact h0
  · by_cases hp : p = []
    · have h1 : SeenLast hk (([] : List DataSync).getLast?.map DataSync.FlagData)
          { rs.record hk (.ok p) with ready := true } := by
        simpa [SeenLast, Sync.record, lastSHA, hp] using h0
      simpa [hp] using SeenLast.cronRun_sent cycles h1
    · have h1 : SeenLast hk (([⟨p, rs.URI⟩] : List DataSync).getLast?.map DataSync.FlagData)
          { rs.record hk (.ok p) with ready := true } := by
        simp [SeenLast, Sync.record, lastSHA, hp]
      simpa [hp] using SeenLast.cronRun_sent cycles h1

/-- On the sequential schedule, from a provider that has seen no document, as
`NewRedisSync` builds it, change detection stays in step with the consumer: after
every such run `LastSHA` is the fingerprint of the last document `processSyncData`
took, and empty before the first. A cron job stays silent only on a document the
consumer already has. With a resync scheduled, or two cron jobs overlapping, this is
lost (`Service`, `Jobs`). -/
theorem Run.lastSHA_sequentialActions (hk : Hooks) (rs : Sync) (hint : rs.Interval ≠ 0)
    (h0 : rs.LastSHA = []) (r₀ : Replies) (cycles : List Replies) :
    ((Run.start rs).run hk (sequentialActions r₀ cycles)).rs.LastSHA =
      ((((Run.start rs).deliveries hk (sequentialActions r₀ cycles)).getLast?).map
        fun ev => generateSHA hk ev.FlagData).getD [] := by
  obtain ⟨hd, hrs⟩ := Run.sequentialActions_spec hk rs hint r₀ cycles
  have h := syncFinal_seenLast hk h0 r₀ cycles
  rw [hd, hrs, show (syncFinal hk rs r₀ cycles).LastSHA = _ from h]
  cases (syncEvents hk rs r₀ cycles).getLast? <;> rfl

/-- Two cron cycles reading the same document after the initial fetch on a fresh
provider: the second sends nothing, and `LastSHA` is the fingerprint of the one
document the consumer took. -/
theorem lastSHA_sequential_v1_v1 :
    ({ (default : Sync) with Interval := 30 } : Sync).Interval ≠ 0 ∧
      ({ (default : Sync) with Interval := 30 } : Sync).LastSHA = [] ∧
      ((Run.start { (default : Sync) with Interval := 30 }).run (Hooks.plain false)
          (sequentialActions (.ofJSON (lit "v1"))
            [.ofJSON (lit "v1"), .ofJSON (lit "v1")])).rs.LastSHA =
        ((((Run.start { (default : Sync) with Interval := 30 }).deliveries (Hooks.plain false)
          (sequentialActions (.ofJSON (lit "v1"))
            [.ofJSON (lit "v1"), .ofJSON (lit "v1")])).getLast?).map
          fun ev => generateSHA (Hooks.plain false) ev.FlagData).getD [] :=
  ⟨by decide, rfl, Run.lastSHA_sequentialActions _ _ (by decide) rfl _ _⟩

end RedisSync
