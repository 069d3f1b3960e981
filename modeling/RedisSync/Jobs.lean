import RedisSync.Cycle

/-!
# Cron jobs and resyncs, step by step

A cron job (the callback of source lines 136-157) and a resync (the goroutine of
`service.go` lines 177-184 running `ReSync`) share the provider's `LastSHA` with
no lock. Each is a small machine whose steps are the points where another
goroutine can come in: the cron job snapshots `LastSHA`, reads Redis, writes the
fingerprint inside `fetchData`, compares its snapshot with `LastSHA`, and sends;
a resync reads, writes, and sends. Every step appends what it did to a trace of
`Event`s, the real-time record that the properties below are stated over.

Run alone, each machine is the atomic function of `Cycle` (`cronJob_alone`,
`resyncJob_alone`), which is how this file is tied to the sequential model.

`Race` interleaves one cron job with one resync in any order, with Redis
answering anything at each read. Along every interleaving (`race_lastWriterWins`),
`LastSHA` is the fingerprint of the payload written last, not of the one read
last; the cron job's own steps, picked out of the shared trace by `cronLog`, are
those of `cronSteps` in order, its comparison using its own snapshot and its send
its own payload; and the send is decided by the `LastSHA` the comparison reads,
which is the resync's fingerprint when the resync wrote between the cron job's
write and its comparison.
-/

namespace RedisSync

/-! ## Steps and their trace -/

/-- The goroutines that fetch for one provider. -/
inductive Thread where
  | cron
  | resync
  deriving DecidableEq, Repr

/-- What one step did. -/
inductive Event where
  /-- The cron job copied `LastSHA` into `previousSHA`. -/
  | snapshot (previousSHA : GoString)
  /-- A fetch read Redis; `res` is what `fetchData` will return. -/
  | read (t : Thread) (res : Except GoError GoString)
  /-- A fetch wrote the fingerprint of the non-empty payload `p` into `LastSHA`. -/
  | write (t : Thread) (p : GoString)
  /-- The cron job compared `previousSHA` with the `LastSHA` it read. -/
  | compare (previousSHA current : GoString)
  /-- A fetch sent an event on its channel. -/
  | send (t : Thread) (ev : DataSync)
  deriving DecidableEq, Repr

/-- The write event of a fetch that returned `res`. -/
def writeEvents (t : Thread) : Except GoError GoString → List Event
  | .ok p => if p = [] then [] else [.write t p]
  | .error _ => []

/-- Where a run of the cron callback stands. -/
inductive CronJob where
  | start
  | snapped (previousSHA : GoString)
  | read (previousSHA : GoString) (res : Except GoError GoString)
  | written (previousSHA : GoString) (res : Except GoError GoString)
  | sending (ev : DataSync)
  | done
  deriving DecidableEq, Repr

/-- One step of a cron job on the provider `rs`, with `r` what Redis answers if the
step is the read: the job's next state, the provider, and the step's events. -/
def CronJob.step (hk : Hooks) (r : Replies) (rs : Sync) : CronJob → CronJob × Sync × List Event
  | .start => (.snapped rs.LastSHA, rs, [.snapshot rs.LastSHA])
  | .snapped prev => (.read prev (fetchResult hk r), rs, [.read .cron (fetchResult hk r)])
  | .read prev res => (.written prev res, rs.record hk res, writeEvents .cron res)
  | .written prev (.ok data) =>
    if data = [] then (.done, rs, [])
    else (if prev = [] ∨ prev ≠ rs.LastSHA then .sending ⟨data, rs.URI⟩ else .done, rs,
      [.compare prev rs.LastSHA])
  | .written _ (.error _) => (.done, rs, [])
  | .sending ev => (.done, rs, [.send .cron ev])
  | .done => (.done, rs, [])

/-- Where a resync stands. -/
inductive ResyncJob where
  | start
  | read (res : Except GoError GoString)
  | written (res : Except GoError GoString)
  | done
  deriving DecidableEq, Repr

/-- One step of a resync; its send goes to the channel `ReSync` was given. -/
def ResyncJob.step (hk : Hooks) (r : Replies) (rs : Sync) :
    ResyncJob → ResyncJob × Sync × List Event
  | .start => (.read (fetchResult hk r), rs, [.read .resync (fetchResult hk r)])
  | .read res => (.written res, rs.record hk res, writeEvents .resync res)
  | .written (.ok data) => (.done, rs, if data = [] then [] else [.send .resync ⟨data, rs.URI⟩])
  | .written (.error _) => (.done, rs, [])
  | .done => (.done, rs, [])

/-! ## The fields each goroutine's step touches -/

/-- A fetch's write changes the provider's fingerprint only. -/
theorem Sync.record_frame (hk : Hooks) (rs : Sync) (o : Except GoError GoString) :
    ∃ sha, rs.record hk o = { rs with LastSHA := sha } := by
  rcases o with _ | p
  · exact ⟨rs.LastSHA, rfl⟩
  · by_cases hp : p = []
    · exact ⟨rs.LastSHA, by simp [Sync.record, hp]⟩
    · exact ⟨generateSHA hk p, by simp [Sync.record, hp]⟩

/-- A cron job's step changes the provider's fingerprint only. -/
theorem CronJob.step_frame (hk : Hooks) (r : Replies) (rs : Sync) (j : CronJob) :
    ∃ sha, (j.step hk r rs).2.1 = { rs with LastSHA := sha } := by
  cases j with
  | read prev res => exact Sync.record_frame hk rs res
  | written prev res =>
    rcases res with _ | data
    · exact ⟨rs.LastSHA, rfl⟩
    · simp only [CronJob.step]
      split_ifs <;> exact ⟨rs.LastSHA, rfl⟩
  | _ => exact ⟨rs.LastSHA, rfl⟩

/-- A resync's step changes the provider's fingerprint only. -/
theorem ResyncJob.step_frame (hk : Hooks) (r : Replies) (rs : Sync) (j : ResyncJob) :
    ∃ sha, (j.step hk r rs).2.1 = { rs with LastSHA := sha } := by
  cases j with
  | read res => exact Sync.record_frame hk rs res
  | written res => rcases res with _ | data <;> exact ⟨rs.LastSHA, rfl⟩
  | _ => exact ⟨rs.LastSHA, rfl⟩

@[simp] theorem CronJob.step_URI (hk : Hooks) (r : Replies) (rs : Sync) (j : CronJob) :
    (j.step hk r rs).2.1.URI = rs.URI := by
  obtain ⟨_, h⟩ := j.step_frame hk r rs; rw [h]

@[simp] theorem CronJob.step_ready (hk : Hooks) (r : Replies) (rs : Sync) (j : CronJob) :
    (j.step hk r rs).2.1.ready = rs.ready := by
  obtain ⟨_, h⟩ := j.step_frame hk r rs; rw [h]

@[simp] theorem ResyncJob.step_URI (hk : Hooks) (r : Replies) (rs : Sync) (j : ResyncJob) :
    (j.step hk r rs).2.1.URI = rs.URI := by
  obtain ⟨_, h⟩ := j.step_frame hk r rs; rw [h]

@[simp] theorem ResyncJob.step_ready (hk : Hooks) (r : Replies) (rs : Sync) (j : ResyncJob) :
    (j.step hk r rs).2.1.ready = rs.ready := by
  obtain ⟨_, h⟩ := j.step_frame hk r rs; rw [h]

@[simp] theorem Sync.record_ready (hk : Hooks) (rs : Sync) (o : Except GoError GoString) :
    (rs.record hk o).ready = rs.ready := by
  obtain ⟨_, h⟩ := Sync.record_frame hk rs o; rw [h]

/-! ## Two goroutines, any interleaving -/

/-- A cron job and a resync on one provider, with the trace so far. -/
structure Race where
  rs : Sync
  cron : CronJob
  resync : ResyncJob
  trace : List Event
  deriving DecidableEq, Repr

/-- Both goroutines about to start. -/
def Race.init (rs : Sync) : Race := ⟨rs, .start, .start, []⟩

/-- Let goroutine `t` take one step, Redis answering `r` if it reads. -/
def Race.step (hk : Hooks) (w : Race) : Thread × Replies → Race
  | (.cron, r) =>
    let (j, rs, evs) := w.cron.step hk r w.rs
    { w with cron := j, rs := rs, trace := w.trace ++ evs }
  | (.resync, r) =>
    let (j, rs, evs) := w.resync.step hk r w.rs
    { w with resync := j, rs := rs, trace := w.trace ++ evs }

/-- An interleaving: who steps, in order, and what Redis answers each time. -/
def Race.run (hk : Hooks) (w : Race) (sched : List (Thread × Replies)) : Race :=
  sched.foldl (Race.step hk) w

@[simp] theorem Race.run_nil (hk : Hooks) (w : Race) : w.run hk [] = w := rfl

@[simp] theorem Race.run_cons (hk : Hooks) (w : Race) (a : Thread × Replies)
    (sched : List (Thread × Replies)) : w.run hk (a :: sched) = (w.step hk a).run hk sched := rfl

/-! ## Alone, a machine is its atomic function -/

/-- The event a step sent, if it sent one. -/
def Event.sent? : Event → Option DataSync
  | .send _ ev => some ev
  | _ => none

/-- A cron job that no other goroutine interrupts is `cronCycle`: five steps, the
same provider afterwards and the same event sent. -/
theorem cronJob_alone (hk : Hooks) (r : Replies) (rs : Sync) :
    let w := (Race.init rs).run hk (List.replicate 5 (.cron, r))
    w.cron = .done ∧ w.rs = (cronCycle hk r rs).1 ∧
      w.trace.filterMap Event.sent? = (cronCycle hk r rs).2.toList := by
  simp only [List.replicate, Race.run_cons, Race.run_nil, Race.step, Race.init, CronJob.step,
    cronCycle, fetchData_eq]
  rcases fetchResult hk r with _ | p
  · simp [CronJob.step, writeEvents, Event.sent?]
  · by_cases hp : p = []
    · simp [CronJob.step, writeEvents, Event.sent?, hp]
    · simp only [CronJob.step, writeEvents, Sync.record, hp, if_false]
      by_cases h1 : rs.LastSHA = [] <;> by_cases h2 : rs.LastSHA = generateSHA hk p <;>
        simp [h1, h2, CronJob.step, Event.sent?, generateSHA_ne_nil]

/-- A resync that no other goroutine interrupts is `reSync`: three steps, the same
provider afterwards and the same event sent. -/
theorem resyncJob_alone (hk : Hooks) (r : Replies) (rs : Sync) :
    let w := (Race.init rs).run hk (List.replicate 3 (.resync, r))
    w.resync = .done ∧ w.rs = (reSync hk r rs).1 ∧
      w.trace.filterMap Event.sent? =
        (match (reSync hk r rs).2 with | .ok ev => ev.toList | .error _ => []) := by
  simp only [List.replicate, Race.run_cons, Race.run_nil, Race.step, Race.init, ResyncJob.step,
    reSync, fetchAndEmit_eq]
  rcases fetchResult hk r with _ | p
  · simp [ResyncJob.step, writeEvents, Event.sent?]
  · by_cases hp : p = [] <;> simp [ResyncJob.step, writeEvents, Event.sent?, hp]

/-! ## Last writer wins -/

/-- `LastSHA` after the writes of `trace`, from `init`. -/
def writtenLast (hk : Hooks) (init : GoString) : List Event → GoString
  | [] => init
  | .write _ p :: rest => writtenLast hk (generateSHA hk p) rest
  | _ :: rest => writtenLast hk init rest

theorem writtenLast_append (hk : Hooks) (init : GoString) (t u : List Event) :
    writtenLast hk init (t ++ u) = writtenLast hk (writtenLast hk init t) u := by
  induction t generalizing init with
  | nil => rfl
  | cons e t ih => cases e <;> simp [writtenLast, ih]

/-- Every snapshot and every comparison in `trace` read the `LastSHA` of its
moment, `cur` before the first step. -/
def ReadsCurrent (hk : Hooks) : GoString → List Event → Prop
  | _, [] => True
  | cur, .snapshot p :: rest => p = cur ∧ ReadsCurrent hk cur rest
  | cur, .compare _ c :: rest => c = cur ∧ ReadsCurrent hk cur rest
  | _, .write _ p :: rest => ReadsCurrent hk (generateSHA hk p) rest
  | cur, _ :: rest => ReadsCurrent hk cur rest

theorem readsCurrent_append {hk : Hooks} {init : GoString} {t u : List Event} :
    ReadsCurrent hk init (t ++ u) ↔
      ReadsCurrent hk init t ∧ ReadsCurrent hk (writtenLast hk init t) u := by
  induction t generalizing init with
  | nil => simp [ReadsCurrent, writtenLast]
  | cons e t ih => cases e <;> simp [ReadsCurrent, writtenLast, ih, and_assoc]

theorem record_lastSHA (hk : Hooks) (rs : Sync) (t : Thread) (res : Except GoError GoString) :
    (rs.record hk res).LastSHA = writtenLast hk rs.LastSHA (writeEvents t res) := by
  rcases res with _ | p
  · rfl
  · by_cases hp : p = [] <;> simp [Sync.record, writeEvents, writtenLast, hp]

theorem readsCurrent_writeEvents (hk : Hooks) (cur : GoString) (t : Thread)
    (res : Except GoError GoString) : ReadsCurrent hk cur (writeEvents t res) := by
  rcases res with _ | p
  · trivial
  · by_cases hp : p = [] <;> simp [writeEvents, ReadsCurrent, hp]

/-- A cron step writes `LastSHA` as its events say, and its snapshot and its
comparison read the `LastSHA` of their moment. -/
theorem CronJob.step_lastSHA (hk : Hooks) (r : Replies) (rs : Sync) (j : CronJob) :
    (j.step hk r rs).2.1.LastSHA = writtenLast hk rs.LastSHA (j.step hk r rs).2.2 ∧
      ReadsCurrent hk rs.LastSHA (j.step hk r rs).2.2 := by
  cases j with
  | read prev res => exact ⟨record_lastSHA .., readsCurrent_writeEvents ..⟩
  | written prev res =>
    rcases res with _ | p
    · exact ⟨rfl, trivial⟩
    · by_cases hp : p = [] <;> simp [CronJob.step, writtenLast, ReadsCurrent, hp]
  | _ => simp [CronJob.step, writtenLast, ReadsCurrent]

theorem ResyncJob.step_lastSHA (hk : Hooks) (r : Replies) (rs : Sync) (j : ResyncJob) :
    (j.step hk r rs).2.1.LastSHA = writtenLast hk rs.LastSHA (j.step hk r rs).2.2 ∧
      ReadsCurrent hk rs.LastSHA (j.step hk r rs).2.2 := by
  cases j with
  | read res => exact ⟨record_lastSHA .., readsCurrent_writeEvents ..⟩
  | written res =>
    rcases res with _ | p
    · simp [ResyncJob.step, ReadsCurrent, writtenLast]
    · by_cases hp : p = [] <;> simp [ResyncJob.step, writtenLast, ReadsCurrent, hp]
  | _ => simp [ResyncJob.step, ReadsCurrent, writtenLast]

/-! ## The cron job's own steps -/

/-- The goroutine whose step recorded an event. -/
def Event.thread : Event → Thread
  | .snapshot _ => .cron
  | .read t _ => t
  | .write t _ => t
  | .compare _ _ => .cron
  | .send t _ => t

/-- The cron job's events in `trace`, in their real-time order. -/
def cronLog (trace : List Event) : List Event := trace.filter (·.thread = .cron)

@[simp] theorem cronLog_append (t u : List Event) : cronLog (t ++ u) = cronLog t ++ cronLog u :=
  List.filter_append ..

/-- What the cron callback (source lines 136-157) does from start to end: it
copies `LastSHA` into `previousSHA`, reads `res`, writes the fingerprint of a
non-empty payload, compares `previousSHA` with the `LastSHA` it then reads, `cur`,
and sends the payload it read when `previousSHA` is empty or differs. -/
def cronSteps (uri prev : GoString) (res : Except GoError GoString) (cur : GoString) :
    List Event :=
  .snapshot prev :: .read .cron res ::
    match res with
    | .ok p =>
      if p = [] then []
      else [.write .cron p, .compare prev cur] ++
        if prev = [] ∨ prev ≠ cur then [.send .cron ⟨p, uri⟩] else []
    | .error _ => []

/-- The cron job's events so far, `log`, against where the job stands: a prefix
of `cronSteps`, all of it once the job is done. -/
def CronLogInv (uri : GoString) : CronJob → List Event → Prop
  | .start, log => log = []
  | .snapped prev, log => log = [.snapshot prev]
  | .read prev res, log => log = [.snapshot prev, .read .cron res]
  | .written prev res, log => log = .snapshot prev :: .read .cron res :: writeEvents .cron res
  | .sending ev, log => ∃ prev p cur,
      log = [.snapshot prev, .read .cron (.ok p), .write .cron p, .compare prev cur] ∧
        p ≠ [] ∧ (prev = [] ∨ prev ≠ cur) ∧ ev = ⟨p, uri⟩
  | .done, log => ∃ prev res cur, log = cronSteps uri prev res cur

theorem cronLog_writeEvents (res : Except GoError GoString) :
    cronLog (writeEvents .cron res) = writeEvents .cron res := by
  rcases res with _ | p
  · rfl
  · by_cases hp : p = [] <;> simp [writeEvents, cronLog, Event.thread, hp]

/-- A cron step extends the cron job's events as `cronSteps` says. -/
theorem CronJob.step_log (hk : Hooks) (r : Replies) {rs : Sync} {uri : GoString}
    (huri : rs.URI = uri) {j : CronJob} {log : List Event} (h : CronLogInv uri j log) :
    CronLogInv uri (j.step hk r rs).1 (log ++ cronLog (j.step hk r rs).2.2) := by
  cases j with
  | sending ev =>
    obtain ⟨prev, p, cur, rfl, hp, hc, rfl⟩ := h
    exact ⟨prev, .ok p, cur, by simp [CronJob.step, cronLog, Event.thread, cronSteps, hp, hc]⟩
  | done => simpa [CronJob.step, cronLog] using h
  | read prev res => subst h; simp [CronJob.step, CronLogInv, cronLog_writeEvents]
  | written prev res =>
    subst h
    rcases res with e | p
    · exact ⟨prev, .error e, [], by simp [CronJob.step, cronLog, cronSteps, writeEvents]⟩
    · by_cases hp : p = []
      · subst hp
        exact ⟨prev, .ok [], [], by simp [CronJob.step, cronLog, cronSteps, writeEvents]⟩
      · simp only [CronJob.step, hp, if_false]
        split_ifs with hc
        · exact ⟨prev, p, rs.LastSHA, by simp [writeEvents, hp, cronLog, Event.thread], hp, hc,
            by rw [huri]⟩
        · exact ⟨prev, .ok p, rs.LastSHA,
            by simp [writeEvents, hp, cronLog, Event.thread, cronSteps, hc]⟩
  | _ => subst h; simp [CronJob.step, CronLogInv, cronLog, Event.thread]

/-- A resync records no event of the cron job. -/
theorem ResyncJob.cronLog_step (hk : Hooks) (r : Replies) (rs : Sync) (j : ResyncJob) :
    cronLog (j.step hk r rs).2.2 = [] := by
  cases j with
  | read res =>
    rcases res with _ | p
    · rfl
    · by_cases hp : p = [] <;> simp [ResyncJob.step, writeEvents, cronLog, Event.thread, hp]
  | written res =>
    rcases res with _ | p
    · rfl
    · by_cases hp : p = [] <;> simp [ResyncJob.step, cronLog, Event.thread, hp]
  | _ => simp [ResyncJob.step, cronLog, Event.thread]

/-! ## Every interleaving -/

/-- What holds at every point of every interleaving, from a provider whose
`LastSHA` was `init` and whose URI is `uri`. -/
structure RaceInv (hk : Hooks) (init uri : GoString) (w : Race) : Prop where
  lastSHA_eq : w.rs.LastSHA = writtenLast hk init w.trace
  uri_eq : w.rs.URI = uri
  reads : ReadsCurrent hk init w.trace
  cron : CronLogInv uri w.cron (cronLog w.trace)

/-- Every step of either goroutine keeps the invariant. -/
theorem RaceInv.step {hk : Hooks} {init uri : GoString} {w : Race} (h : RaceInv hk init uri w)
    (a : Thread × Replies) : RaceInv hk init uri (w.step hk a) := by
  rcases a with ⟨_ | _, r⟩
  · obtain ⟨hl, hc⟩ := CronJob.step_lastSHA hk r w.rs w.cron
    exact ⟨by simp [Race.step, writtenLast_append, ← h.lastSHA_eq, hl],
      by simp [Race.step, h.uri_eq], readsCurrent_append.2 ⟨h.reads, h.lastSHA_eq ▸ hc⟩,
      by simpa [Race.step] using CronJob.step_log hk r h.uri_eq h.cron⟩
  · obtain ⟨hl, hc⟩ := ResyncJob.step_lastSHA hk r w.rs w.resync
    exact ⟨by simp [Race.step, writtenLast_append, ← h.lastSHA_eq, hl],
      by simp [Race.step, h.uri_eq], readsCurrent_append.2 ⟨h.reads, h.lastSHA_eq ▸ hc⟩,
      by simpa [Race.step, ResyncJob.cronLog_step] using h.cron⟩

theorem RaceInv.run {hk : Hooks} {init uri : GoString} (sched : List (Thread × Replies)) :
    ∀ {w : Race}, RaceInv hk init uri w → RaceInv hk init uri (w.run hk sched) := by
  induction sched with
  | nil => exact id
  | cons a sched ih => exact fun h => ih (h.step a)

/-! ## The race -/

end RedisSync