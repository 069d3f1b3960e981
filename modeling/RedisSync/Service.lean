import RedisSync.Jobs
import RedisSync.Cron.Schedule

/-!
# The standalone service: `Service.Start`

`Service.Start` (`service.go` lines 83-128) runs three goroutines under one
`errgroup`: the provider's `Sync`, the gRPC sync service, and `processSyncData`,
which takes events off the one-slot channel `dataSync` and hands them to
`updateStoreFromSyncData`; when the evaluator asks for it, that function starts a
resync goroutine. The group's context is done once the caller cancels, or once a
goroutine returns an error; `Start` returns when all three have returned.

A `Run` is the state of one call after `Init` succeeded: the provider, the
context, where `Sync` stands, the cron jobs fired so far (each a `CronJob`
machine of `Jobs`), the resync goroutines, the consumer, the gRPC service, the
channel, and a trace of what happened. The gRPC sync service is not part of this
repository: it is a task that returns `nil`, and only once the context is done.
Every `Action` is one step of one goroutine, or the caller cancelling; an action
that is not enabled leaves the run as it is, so a list of actions is any
interleaving.

Three things follow for every interleaving (`start_cancellation`): once `Sync`
has stopped the cron and returned, which it does without error only after the
cancellation, no cron job starts, so at most the jobs then in flight can still
send; what `Start` returns is fixed by the initial fetch alone; and once the
context is done `Start` does return, since before its initial send `Sync` has
left the channel empty and the cron off (`Run.Quiet`). Sends after
the cancellation do happen, and a failed initial fetch is reported even when the
cancellation caused it (`start_counterexample`). A resync's event goes to a
channel nobody reads while its fingerprint stays in `LastSHA`, so a change can be
lost for good (`resync_loses_update`).
-/

namespace RedisSync

/-! ## The consumer -/

/-- `s.updateStoreFromSyncData(data)`: whether it starts a resync goroutine, or its
error. -/
def updateStoreFromSyncData (hk : Hooks) (data : DataSync) : Except GoError Bool :=
  if data.FlagData = [] then .ok false
  else match hk.setState data with
    | .error err => .error (.wrap (lit "failed to update evaluator state") err)
    | .ok (_, resyncRequired) => .ok resyncRequired

/-! ## A run of `Start` -/

/-- Where `Sync`'s goroutine stands. -/
inductive SyncTask where
  /-- About to run the initial `fetchData`. -/
  | fetching
  /-- Sending the initial event on `dataSync`. -/
  | sending (ev : DataSync)
  /-- The cron is started; waiting for the context. -/
  | waiting
  /-- `Sync` returned `err`. -/
  | returned (err : Option GoError)
  deriving DecidableEq, Repr

/-- What the trace of a run records. -/
inductive Happening where
  | cancel
  /-- `Sync`'s initial `fetchData` returned `res`. -/
  | fetched (res : Except GoError GoString)
  /-- An event was sent on `dataSync`. -/
  | sent (ev : DataSync)
  deriving DecidableEq, Repr

/-- One call of `Service.Start`, after `Init` succeeded. -/
structure Run where
  rs : Sync
  /-- The caller's context is cancelled. -/
  cancelled : Bool
  /-- The group's first error, which also cancels the group's context. -/
  groupErr : Option GoError
  syncTask : SyncTask
  /-- Between `Cron.Start` and `Cron.Stop`. -/
  cronOn : Bool
  jobs : List CronJob
  resyncs : List ResyncJob
  consumerDone : Bool
  grpcDone : Bool
  /-- The buffer of `dataSync`, of capacity one. -/
  dataSync : List DataSync
  /-- What `Start` returned, once it has. -/
  result : Option (Option GoError)
  trace : List Happening
  deriving DecidableEq, Repr

/-- `Start` right after `Init`: the three goroutines are about to run. -/
def Run.start (rs : Sync) : Run :=
  ⟨rs, false, none, .fetching, false, [], [], false, false, [], none, []⟩

/-- `gCtx.Done()` is closed. -/
def Run.ctxDone (s : Run) : Bool := s.cancelled || s.groupErr.isSome

/-- One step of one goroutine, or the caller cancelling. -/
inductive Action where
  | cancel
  /-- `Sync` runs its initial fetch, Redis answering `r`. -/
  | syncFetch (r : Replies)
  /-- `Sync` sends the initial event, then starts the cron. -/
  | syncSend
  /-- `Sync` sees the context done, stops the cron and returns `nil`. -/
  | syncStop
  /-- The cron starts the job `Sync` added, if `AddFunc` took its spec. -/
  | fire
  /-- Cron job `i` takes a step. -/
  | job (i : Nat) (r : Replies)
  /-- Resync goroutine `i` takes a step. -/
  | resync (i : Nat) (r : Replies)
  /-- `processSyncData` receives an event and handles it. -/
  | receive
  /-- `processSyncData` sees the context done and returns `nil`. -/
  | consumerStop
  /-- The gRPC service returns `nil` once the context is done. -/
  | grpcStop
  /-- `g.Wait()` returns and `Start` with it. -/
  | wait

/-- The error `Start` returns for the group's error `err`. -/
def startError (err : GoError) : GoError := .wrap (lit "Redis sync service error") err

/-- The initial fetch, its event, and the group error when it failed. -/
def Run.syncFetch (hk : Hooks) (r : Replies) (s : Run) : Run :=
  match fetchAndEmit hk (lit "initial Redis fetch failed") r s.rs with
  | (rs, .error err) =>
    { s with
      rs := rs, syncTask := .returned (some err),
      groupErr := s.groupErr <|> some (.wrap (lit "Redis sync error") err),
      trace := s.trace ++ [.fetched (fetchResult hk r)] }
  | (rs, .ok none) =>
    { s with
      rs := { rs with ready := true }, syncTask := .waiting, cronOn := true,
      trace := s.trace ++ [.fetched (fetchResult hk r)] }
  | (rs, .ok (some ev)) =>
    { s with rs := rs, syncTask := .sending ev, trace := s.trace ++ [.fetched (fetchResult hk r)] }

/-- Cron job `i` steps; a job blocked on its send goes on only when the channel has
room. -/
def Run.jobStep (hk : Hooks) (i : Nat) (r : Replies) (s : Run) : Run :=
  match s.jobs[i]? with
  | none => s
  | some (.sending ev) =>
    if s.dataSync.length < 1 then
      { s with
        jobs := s.jobs.set i .done, dataSync := s.dataSync ++ [ev],
        trace := s.trace ++ [.sent ev] }
    else s
  | some j =>
    let (j, rs, _) := j.step hk r s.rs
    { s with jobs := s.jobs.set i j, rs := rs }

/-- Resync goroutine `i` steps; its send goes to the fresh channel it was given. -/
def Run.resyncStep (hk : Hooks) (i : Nat) (r : Replies) (s : Run) : Run :=
  match s.resyncs[i]? with
  | none => s
  | some j =>
    let (j, rs, _) := j.step hk r s.rs
    { s with resyncs := s.resyncs.set i j, rs := rs }

/-- `processSyncData` takes the event in the channel and handles it. -/
def Run.receive (hk : Hooks) (s : Run) : Run :=
  if s.consumerDone then s
  else match s.dataSync with
    | [] => s
    | ev :: rest =>
      match updateStoreFromSyncData hk ev with
      | .ok true => { s with dataSync := rest, resyncs := s.resyncs ++ [.start] }
      | _ => { s with dataSync := rest }

/-- One action; an action that is not enabled changes nothing. -/
def Run.step (hk : Hooks) (s : Run) : Action → Run
  | .cancel =>
    if s.cancelled then s else { s with cancelled := true, trace := s.trace ++ [.cancel] }
  | .syncFetch r => if s.syncTask = .fetching then s.syncFetch hk r else s
  | .syncSend =>
    match s.syncTask with
    | .sending ev =>
      if s.dataSync.length < 1 then
        { s with
          dataSync := s.dataSync ++ [ev], trace := s.trace ++ [.sent ev],
          rs := { s.rs with ready := true }, syncTask := .waiting, cronOn := true }
      else s
    | _ => s
  | .syncStop =>
    if s.syncTask = .waiting ∧ s.ctxDone then
      { s with cronOn := false, syncTask := .returned none }
    else s
  | .fire =>
    if s.cronOn ∧ s.rs.cronSchedule.isSome then { s with jobs := s.jobs ++ [.start] } else s
  | .job i r => s.jobStep hk i r
  | .resync i r => s.resyncStep hk i r
  | .receive => s.receive hk
  | .consumerStop => if !s.consumerDone ∧ s.ctxDone then { s with consumerDone := true } else s
  | .grpcStop => if !s.grpcDone ∧ s.ctxDone then { s with grpcDone := true } else s
  | .wait =>
    match s.result, s.syncTask with
    | none, .returned _ =>
      if s.consumerDone ∧ s.grpcDone then { s with result := some (s.groupErr.map startError) }
      else s
    | _, _ => s

/-- The actions in order. -/
def Run.run (hk : Hooks) (s : Run) (acts : List Action) : Run := acts.foldl (Run.step hk) s

@[simp] theorem Run.run_nil (hk : Hooks) (s : Run) : s.run hk [] = s := rfl

@[simp] theorem Run.run_cons (hk : Hooks) (s : Run) (a : Action) (acts : List Action) :
    s.run hk (a :: acts) = (s.step hk a).run hk acts := rfl

theorem Run.run_append (hk : Hooks) (s : Run) (acts more : List Action) :
    s.run hk (acts ++ more) = (s.run hk acts).run hk more := List.foldl_append ..

/-! ## The invariant of a run -/

/-- The first initial-fetch outcome the trace records. -/
def initialOutcome : List Happening → Option (Except GoError GoString)
  | [] => none
  | .fetched res :: _ => some res
  | _ :: rest => initialOutcome rest

theorem initialOutcome_append (t u : List Happening) :
    initialOutcome (t ++ u) = (initialOutcome t).or (initialOutcome u) := by
  induction t with
  | nil => rfl
  | cons h t ih => cases h <;> simp [initialOutcome, ih]

/-- What `Start` returns once the initial fetch returned `res`. -/
def expectedResult : Except GoError GoString → Option GoError
  | .ok _ => none
  | .error e => some (startError (.wrap (lit "Redis sync error")
      (.wrap (lit "initial Redis fetch failed") e)))

/-- Where `Sync` stands, against the context, the group error and the initial
fetch `init` the trace records. -/
def SyncAccount (cancelled : Bool) (groupErr : Option GoError)
    (init : Option (Except GoError GoString)) : SyncTask → Prop
  | .fetching => init = none ∧ groupErr = none
  | .returned (some err) => ∃ e, init = some (.error e) ∧
      err = .wrap (lit "initial Redis fetch failed") e ∧
      groupErr = some (.wrap (lit "Redis sync error") err)
  | .returned none => (∃ p, init = some (.ok p)) ∧ groupErr = none ∧ cancelled = true
  | _ => (∃ p, init = some (.ok p)) ∧ groupErr = none

theorem SyncAccount.cancel {g : Option GoError} {i : Option (Except GoError GoString)}
    {c : Bool} {t : SyncTask} (h : SyncAccount c g i t) : SyncAccount true g i t := by
  rcases t with _ | _ | _ | _ | _ <;> simp_all [SyncAccount]

/-- What holds in every reachable run. -/
structure StartInv (s : Run) : Prop where
  /-- The cron runs only while `Sync` waits for the context. -/
  cronOn_waiting : s.cronOn = true → s.syncTask = .waiting
  account : SyncAccount s.cancelled s.groupErr (initialOutcome s.trace) s.syncTask
  /-- `Start` returned the group's error, once `Sync` had returned. -/
  result : ∀ r, s.result = some r →
    (∃ err, s.syncTask = .returned err) ∧ r = s.groupErr.map startError

/-- `t` agrees with `s` on everything `StartInv` reads. -/
structure SameControl (s t : Run) : Prop where
  cancelled : t.cancelled = s.cancelled
  groupErr : t.groupErr = s.groupErr
  syncTask : t.syncTask = s.syncTask
  cronOn : t.cronOn = s.cronOn
  result : t.result = s.result
  initial : initialOutcome t.trace = initialOutcome s.trace

theorem StartInv.of_sameControl {s t : Run} (h : StartInv s) (hc : SameControl s t) :
    StartInv t where
  cronOn_waiting := by rw [hc.cronOn, hc.syncTask]; exact h.cronOn_waiting
  account := by rw [hc.cancelled, hc.groupErr, hc.initial, hc.syncTask]; exact h.account
  result := by rw [hc.result, hc.syncTask, hc.groupErr]; exact h.result

theorem SameControl.sent {s t : Run} (ev : DataSync) (h1 : t.cancelled = s.cancelled)
    (h2 : t.groupErr = s.groupErr) (h3 : t.syncTask = s.syncTask) (h4 : t.cronOn = s.cronOn)
    (h5 : t.result = s.result) (h6 : t.trace = s.trace ++ [.sent ev]) : SameControl s t :=
  ⟨h1, h2, h3, h4, h5, by simp [h6, initialOutcome_append, initialOutcome]⟩

theorem Run.jobStep_control (hk : Hooks) (i : Nat) (r : Replies) (s : Run) :
    SameControl s (s.jobStep hk i r) := by
  unfold Run.jobStep
  split
  · exact ⟨rfl, rfl, rfl, rfl, rfl, rfl⟩
  · split
    · exact .sent _ rfl rfl rfl rfl rfl rfl
    · exact ⟨rfl, rfl, rfl, rfl, rfl, rfl⟩
  · exact ⟨rfl, rfl, rfl, rfl, rfl, rfl⟩

theorem Run.resyncStep_control (hk : Hooks) (i : Nat) (r : Replies) (s : Run) :
    SameControl s (s.resyncStep hk i r) := by
  unfold Run.resyncStep
  split <;> exact ⟨rfl, rfl, rfl, rfl, rfl, rfl⟩

theorem Run.receive_control (hk : Hooks) (s : Run) : SameControl s (s.receive hk) := by
  unfold Run.receive
  split
  · exact ⟨rfl, rfl, rfl, rfl, rfl, rfl⟩
  · split
    · exact ⟨rfl, rfl, rfl, rfl, rfl, rfl⟩
    · split <;> exact ⟨rfl, rfl, rfl, rfl, rfl, rfl⟩

theorem StartInv.syncFetch {hk : Hooks} {s : Run} (h : StartInv s) (r : Replies)
    (hf : s.syncTask = .fetching) : StartInv (s.syncFetch hk r) := by
  have hacc := h.account
  rw [hf] at hacc
  obtain ⟨hinit, hg⟩ := hacc
  have hres : s.result = none := by
    cases hr : s.result with
    | none => rfl
    | some r => obtain ⟨⟨_, he⟩, _⟩ := h.result r hr; simp [hf] at he
  have hcron : s.cronOn = false := by
    cases hc : s.cronOn with
    | false => rfl
    | true => simp [h.cronOn_waiting hc] at hf
  unfold Run.syncFetch
  rw [fetchAndEmit_eq]
  rcases fetchResult hk r with e | p
  · refine ⟨by simpa using hcron, ?_, by simp [hres]⟩
    simp [SyncAccount, initialOutcome_append, initialOutcome, hinit, hg]
  · by_cases hp : p = []
    · simp only [hp, if_true]
      exact ⟨fun _ => rfl,
        by simp [SyncAccount, initialOutcome_append, initialOutcome, hinit, hg], by simp [hres]⟩
    · simp only [hp, if_false]
      exact ⟨by simpa using hcron,
        by simp [SyncAccount, initialOutcome_append, initialOutcome, hinit, hg], by simp [hres]⟩

theorem StartInv.step {hk : Hooks} {s : Run} (h : StartInv s) (a : Action) :
    StartInv (s.step hk a) := by
  cases a with
  | cancel =>
    simp only [Run.step]
    split
    · exact h
    · exact ⟨h.cronOn_waiting,
        by simpa [initialOutcome_append, initialOutcome] using h.account.cancel, h.result⟩
  | syncFetch r =>
    simp only [Run.step]
    split
    · exact h.syncFetch r ‹_›
    · exact h
  | syncSend =>
    simp only [Run.step]
    split
    next ev hst =>
      split
      · have hacc := h.account
        rw [hst] at hacc
        refine ⟨fun _ => rfl, ?_, fun r hr => ?_⟩
        · simpa [initialOutcome_append, initialOutcome, SyncAccount] using hacc
        · obtain ⟨⟨_, he⟩, _⟩ := h.result r hr; simp [hst] at he
      · exact h
    · exact h
  | syncStop =>
    simp only [Run.step]
    split
    · rename_i hw
      have hacc := h.account
      rw [hw.1] at hacc
      refine ⟨by simp, ?_, fun r hr => ?_⟩
      · exact ⟨hacc.1, hacc.2, by simpa [Run.ctxDone, hacc.2] using hw.2⟩
      · obtain ⟨⟨_, he⟩, _⟩ := h.result r hr; simp [hw.1] at he
    · exact h
  | fire =>
    simp only [Run.step]
    split
    · exact h.of_sameControl ⟨rfl, rfl, rfl, rfl, rfl, rfl⟩
    · exact h
  | job i r => exact h.of_sameControl (Run.jobStep_control hk i r s)
  | resync i r => exact h.of_sameControl (Run.resyncStep_control hk i r s)
  | receive => exact h.of_sameControl (Run.receive_control hk s)
  | consumerStop =>
    simp only [Run.step]
    split
    · exact h.of_sameControl ⟨rfl, rfl, rfl, rfl, rfl, rfl⟩
    · exact h
  | grpcStop =>
    simp only [Run.step]
    split
    · exact h.of_sameControl ⟨rfl, rfl, rfl, rfl, rfl, rfl⟩
    · exact h
  | wait =>
    simp only [Run.step]
    split
    · split
      · exact ⟨h.cronOn_waiting, h.account,
          fun r hr => ⟨⟨_, ‹_›⟩, (Option.some.inj hr).symm⟩⟩
      · exact h
    · exact h

theorem StartInv.run {hk : Hooks} (acts : List Action) :
    ∀ {s : Run}, StartInv s → StartInv (s.run hk acts) := by
  induction acts with
  | nil => exact id
  | cons a acts ih => exact fun h => ih (h.step a)

theorem StartInv.start (rs : Sync) : StartInv (Run.start rs) :=
  ⟨fun h => (nomatch h), ⟨rfl, rfl⟩, fun _ h => (nomatch h)⟩

/-! ## After `Sync` returns -/

/-- The events sent on `dataSync` in `t`. -/
def sentCount (t : List Happening) : Nat :=
  t.countP fun h => match h with | .sent _ => true | _ => false

/-- The cron jobs that have not finished. -/
def inFlight (s : Run) : Nat := s.jobs.countP (· != .done)

@[simp] theorem CronJob.step_done (hk : Hooks) (r : Replies) (rs : Sync) :
    (CronJob.done.step hk r rs).1 = .done := rfl

/-- A job step either sends, finishing a job in flight, or sends nothing. -/
theorem Run.jobStep_sends_le (hk : Hooks) (i : Nat) (r : Replies) (s : Run) :
    sentCount (s.jobStep hk i r).trace + inFlight (s.jobStep hk i r) ≤
      sentCount s.trace + inFlight s := by
  unfold Run.jobStep
  split
  · exact le_rfl
  next ev hj =>
    obtain ⟨hi, hji⟩ := List.getElem?_eq_some_iff.1 hj
    have hpos := List.boole_getElem_le_countP (· != CronJob.done) s.jobs i hi
    split
    · have h1 : (CronJob.sending ev != CronJob.done) = true := rfl
      simp only [sentCount, inFlight, List.countP_append, List.countP_set _ _ _ _ hi, hji, h1,
        if_true, bne_self_eq_false, Bool.false_eq_true, if_false, List.countP_singleton] at hpos ⊢
      omega
    · exact le_rfl
  next j _ hj =>
    obtain ⟨hi, hji⟩ := List.getElem?_eq_some_iff.1 hj
    have hpos := List.boole_getElem_le_countP (· != CronJob.done) s.jobs i hi
    simp only [inFlight, List.countP_set _ _ _ _ hi, hji] at hpos ⊢
    by_cases hd : j = .done
    · subst hd; simp
    · have h1 : (j != CronJob.done) = true := by simpa using hd
      rw [if_pos h1] at hpos ⊢
      split <;> omega

/-- Once `Sync` has returned, it stays returned, and no step adds to the events
sent plus the cron jobs in flight: no cron job starts any more. -/
theorem StartInv.step_sends_le {hk : Hooks} {s : Run} (h : StartInv s) {err : Option GoError}
    (hs : s.syncTask = .returned err) (a : Action) :
    (s.step hk a).syncTask = .returned err ∧
      sentCount (s.step hk a).trace + inFlight (s.step hk a) ≤
        sentCount s.trace + inFlight s := by
  have hcron : s.cronOn = false := by
    cases hc : s.cronOn with
    | false => rfl
    | true => simp [h.cronOn_waiting hc] at hs
  cases a with
  | job i r =>
    exact ⟨(Run.jobStep_control hk i r s).syncTask.trans hs, Run.jobStep_sends_le hk i r s⟩
  | resync i r =>
    refine ⟨(Run.resyncStep_control hk i r s).syncTask.trans hs, ?_⟩
    simp only [Run.step, Run.resyncStep]
    split <;> exact le_rfl
  | receive =>
    refine ⟨(Run.receive_control hk s).syncTask.trans hs, ?_⟩
    simp only [Run.step, Run.receive]
    split
    · exact le_rfl
    · split
      · exact le_rfl
      · split <;> exact le_rfl
  | cancel =>
    simp only [Run.step]
    split
    · exact ⟨hs, le_rfl⟩
    · simp [hs, sentCount, inFlight]
  | _ => simp only [Run.step, hs, hcron]; (repeat' split) <;> simp_all [inFlight]

theorem StartInv.run_sends_le {hk : Hooks} (more : List Action) :
    ∀ {s : Run}, StartInv s → ∀ {err : Option GoError}, s.syncTask = .returned err →
      sentCount (s.run hk more).trace + inFlight (s.run hk more) ≤
        sentCount s.trace + inFlight s := by
  induction more with
  | nil => intros; exact le_rfl
  | cons a more ih =>
    intro s h err hs
    obtain ⟨hs', hle⟩ := h.step_sends_le hs a
    exact (ih (h.step a) hs').trans hle

section
variable {hk : Hooks}

/-! ## `Start` returns -/

/-- Whether `Sync` is before its initial send: fetching, or sending. -/
def SyncTask.early : SyncTask → Bool
  | .fetching => true
  | .sending _ => true
  | _ => false

/-- Before `Sync`'s initial send the cron is off, no job has started, and the channel
is empty. -/
def Run.Quiet (s : Run) : Prop :=
  s.syncTask.early = true → s.dataSync = [] ∧ s.jobs = [] ∧ s.cronOn = false

theorem Run.Quiet.same {s t : Run} (h : s.Quiet) (h1 : t.syncTask = s.syncTask)
    (h2 : t.dataSync = s.dataSync) (h3 : t.jobs = s.jobs) (h4 : t.cronOn = s.cronOn) :
    t.Quiet := by
  unfold Run.Quiet; rw [h1, h2, h3, h4]; exact h

theorem Run.Quiet.late {t : Run} (h : t.syncTask.early = false) : t.Quiet :=
  fun he => absurd (h.symm.trans he) Bool.false_ne_true

theorem Run.Quiet.syncFetch {s : Run} (h : s.Quiet) (hf : s.syncTask = .fetching)
    (r : Replies) : (s.syncFetch hk r).Quiet := by
  have hq := h (by rw [hf]; rfl)
  unfold Run.syncFetch
  split
  · exact Run.Quiet.late rfl
  · exact Run.Quiet.late rfl
  · exact fun _ => hq

theorem Run.Quiet.step {s : Run} (h : s.Quiet) (a : Action) : (s.step hk a).Quiet := by
  by_cases he : s.syncTask.early
  · obtain ⟨hd, hj, hc⟩ := h he
    cases a with
    | syncFetch r =>
      simp only [Run.step]
      split
      · exact h.syncFetch ‹_› r
      · exact h
    | syncSend =>
      simp only [Run.step]
      split
      · split
        · exact Run.Quiet.late rfl
        · exact h
      · exact h
    | job i r => simpa [Run.step, Run.jobStep, hj] using h
    | receive => simpa [Run.step, Run.receive, hd] using h
    | fire => simpa [Run.step, hc] using h
    | resync i r =>
      simp only [Run.step, Run.resyncStep]
      split
      · exact h
      · exact h.same rfl rfl rfl rfl
    | _ =>
      simp only [Run.step]
      repeat (first | exact h | exact h.same rfl rfl rfl rfl | exact Run.Quiet.late rfl | split)
  · have hl : s.syncTask.early = false := by simpa using he
    have hc : SameControl s (s.step hk a) → (s.step hk a).Quiet := fun hc =>
      Run.Quiet.late (by rw [hc.syncTask, hl])
    cases a with
    | job i r => exact hc (Run.jobStep_control hk i r s)
    | resync i r => exact hc (Run.resyncStep_control hk i r s)
    | receive => exact hc (Run.receive_control hk s)
    | syncFetch r =>
      simp only [Run.step]
      split
      · next hf => simp [hf, SyncTask.early] at he
      · exact h
    | _ =>
      simp only [Run.step]
      repeat (first | exact h | exact Run.Quiet.late rfl | exact Run.Quiet.late hl | split)

theorem Run.Quiet.run (acts : List Action) :
    ∀ {s : Run}, s.Quiet → (s.run hk acts).Quiet := by
  induction acts with
  | nil => exact id
  | cons a acts ih => exact fun h => ih (h.step a)

/-- Once done, the group's context stays done. -/
theorem Run.ctxDone_step {s : Run} (h : s.ctxDone = true) (a : Action) :
    (s.step hk a).ctxDone = true := by
  have hc : SameControl s (s.step hk a) → (s.step hk a).ctxDone = true := fun hc => by
    rw [Run.ctxDone, hc.cancelled, hc.groupErr]; exact h
  cases a with
  | job i r => exact hc (Run.jobStep_control hk i r s)
  | resync i r => exact hc (Run.resyncStep_control hk i r s)
  | receive => exact hc (Run.receive_control hk s)
  | syncFetch r =>
    simp only [Run.step]
    split
    · unfold Run.syncFetch
      split
      · simp only [Run.ctxDone, Bool.or_eq_true]
        exact .inr (by cases s.groupErr <;> rfl)
      all_goals exact h
    · exact h
  | cancel => simp only [Run.step]; split <;> simp_all [Run.ctxDone]
  | _ => simp only [Run.step]; repeat (first | exact h | split)

/-- `Sync`'s pending steps take it to waiting for the context, or to its return:
its initial send finds the channel empty. -/
theorem Run.Quiet.settle {s : Run} (h : s.Quiet) (r : Replies) :
    ((s.step hk (.syncFetch r)).step hk .syncSend).syncTask = .waiting ∨
      ∃ err, ((s.step hk (.syncFetch r)).step hk .syncSend).syncTask = .returned err := by
  cases hs : s.syncTask with
  | fetching =>
    have hd := (h (by rw [hs]; rfl)).1
    simp only [Run.step, hs, if_true, Run.syncFetch]
    generalize fetchAndEmit hk (lit "initial Redis fetch failed") r s.rs = p
    rcases p with ⟨rs', e | _ | ev⟩ <;> simp [hd]
  | sending ev =>
    have hd := (h (by rw [hs]; rfl)).1
    simp [Run.step, hs, hd]
  | waiting => simp [Run.step, hs]
  | returned err => simp [Run.step, hs]

/-- Once `Sync` has returned and the context is done, the consumer's and the gRPC
service's returns and `g.Wait()` make `Start` return. -/
theorem Run.returned_returns {u : Run} {err : Option GoError} (hd : u.ctxDone = true)
    (h : u.syncTask = .returned err) :
    (u.run hk [.consumerStop, .grpcStop, .wait]).result.isSome := by
  simp only [Run.ctxDone] at hd
  cases hr : u.result <;> cases hc : u.consumerDone <;> cases hg : u.grpcDone <;>
    simp [Run.step, Run.ctxDone, h, hd, hr, hc, hg]

/-- From a run in which `Sync` has not sent early, once the context is done,
`Sync`'s pending steps, the returns of the consumer and of the gRPC service, and
`g.Wait()` make `Start` return. -/
theorem Run.Quiet.returns {s : Run} (hq : s.Quiet) (hdone : s.ctxDone = true)
    (r : Replies) : (s.run hk
      [.syncFetch r, .syncSend, .syncStop, .consumerStop, .grpcStop, .wait]).result.isSome := by
  generalize ht : (s.step hk (.syncFetch r)).step hk .syncSend = t
  have hd : t.ctxDone = true := ht ▸ Run.ctxDone_step (Run.ctxDone_step hdone _) _
  obtain ⟨err, hret⟩ : ∃ err, (t.step hk .syncStop).syncTask = .returned err := by
    rcases ht ▸ hq.settle r with hw | ⟨err, hw⟩
    · exact ⟨none, by simp [Run.step, hw, hd]⟩
    · exact ⟨err, by simp [Run.step, hw]⟩
  subst ht
  exact Run.returned_returns (Run.ctxDone_step hd _) hret

end

/-- What `Start` returned is what the initial fetch calls for. -/
theorem StartInv.result_eq {s : Run} (h : StartInv s) {r : Option GoError}
    (hr : s.result = some r) :
    ∃ res, initialOutcome s.trace = some res ∧ r = expectedResult res := by
  obtain ⟨⟨err, hs⟩, rfl⟩ := h.result r hr
  have hacc := h.account
  rw [hs] at hacc
  rcases err with _ | err
  · obtain ⟨⟨p, hp⟩, hg, -⟩ := hacc
    exact ⟨_, hp, by simp [hg, expectedResult]⟩
  · obtain ⟨e, he, rfl, hg⟩ := hacc
    exact ⟨_, he, by simp [hg, expectedResult]⟩

/-- For every interleaving of `Start`'s goroutines with the caller's cancellation,
whatever Redis and the evaluator answer: `Sync` returns `nil` only after the
cancellation; once `Sync` has returned, no cron job starts, so the events still
to be sent on `dataSync` are at most the cron jobs then in flight; `Start`
returns `nil` exactly when the initial fetch succeeded, and otherwise that
fetch's error, wrapped, whether or not the cancellation caused it; and once the
context is done, `Start` does return: `Sync`'s pending steps, the returns of the
consumer and of the gRPC service, and `g.Wait()` end it with that result. -/
theorem start_cancellation (hk : Hooks) (rs : Sync) (acts more : List Action) :
    let s := (Run.start rs).run hk acts
    (s.syncTask = .returned none → s.cancelled = true) ∧
    (∀ err, s.syncTask = .returned err →
      sentCount (s.run hk more).trace + inFlight (s.run hk more) ≤
        sentCount s.trace + inFlight s) ∧
    (∀ r, s.result = some r →
      ∃ res, initialOutcome s.trace = some res ∧ r = expectedResult res) ∧
    (s.ctxDone = true → ∀ r : Replies,
      let u := s.run hk [.syncFetch r, .syncSend, .syncStop, .consumerStop, .grpcStop, .wait]
      ∃ res, initialOutcome u.trace = some res ∧ u.result = some (expectedResult res)) := by
  have h := @StartInv.run hk acts _ (StartInv.start rs)
  refine ⟨fun hs => ?_, fun _ hs => h.run_sends_le more hs, fun _ hr => h.result_eq hr,
    fun hdone r => ?_⟩
  · have hacc := h.account
    rw [hs] at hacc
    exact hacc.2.2
  · have hq : ((Run.start rs).run hk acts).Quiet := Run.Quiet.run acts fun _ => ⟨rfl, rfl, rfl⟩
    obtain ⟨r', hr'⟩ := Option.isSome_iff_exists.mp (hq.returns hdone r)
    obtain ⟨res, hres, rfl⟩ := (StartInv.run _ h).result_eq hr'
    exact ⟨res, hres, hr'⟩

/-! ## What cancellation does not stop -/

/-- Whether an event was sent on `dataSync` after the cancellation. -/
def sentAfterCancel : List Happening → Bool
  | [] => false
  | .cancel :: rest => rest.any fun h => match h with | .sent _ => true | _ => false
  | _ :: rest => sentAfterCancel rest

/-- Whether `Sync`'s initial fetch failed before the cancellation. -/
def failedBeforeCancel : List Happening → Bool
  | [] => false
  | .cancel :: _ => false
  | .fetched (.error _) :: _ => true
  | _ :: rest => failedBeforeCancel rest

/-- No event is sent on `dataSync` after the cancellation, in any interleaving. -/
def NoSendAfterCancel (hk : Hooks) : Prop :=
  ∀ rs acts, sentAfterCancel ((Run.start rs).run hk acts).trace = false

/-- When no goroutine failed before the cancellation, `Start` returns `nil`. -/
def ReturnsNilOnCancel (hk : Hooks) : Prop :=
  ∀ rs acts, let s := (Run.start rs).run hk acts
    failedBeforeCancel s.trace = false → ∀ r, s.result = some r → r = none

/-- Neither holds. A cron job has fetched `v2` and compared when the caller
cancels; it still sends `v2`. And when the caller cancels while `Sync`'s initial
fetch is in flight, both commands fail with `context.Canceled`, `Sync` returns
"initial Redis fetch failed", and `Start` reports it. -/
theorem start_counterexample :
    ¬NoSendAfterCancel (Hooks.plain false) ∧ ¬ReturnsNilOnCancel (Hooks.plain false) := by
  constructor
  · intro h
    have := h { (default : Sync) with Interval := 30 }
      [.syncFetch (.ofJSON (lit "v1")), .syncSend, .receive, .fire,
        .job 0 (.ofJSON (lit "v2")), .job 0 (.ofJSON (lit "v2")), .job 0 (.ofJSON (lit "v2")),
        .job 0 (.ofJSON (lit "v2")), .cancel, .job 0 (.ofJSON (lit "v2"))]
    revert this
    decide
  · intro h
    have := h default [.cancel, .syncFetch .canceled, .consumerStop, .grpcStop, .wait]
      (by decide) _ rfl
    revert this
    decide

/-- The last event sent on `dataSync`. -/
def lastSent : List Happening → Option DataSync
  | [] => none
  | h :: rest =>
    (lastSent rest).or (match h with | .sent ev => some ev | _ => none)

/-- The run that loses an update. `Sync` sends `v1`; the evaluator asks for a
resync; Redis now holds `v2`; the resync fetches `v2`, records its fingerprint and
sends `v2` into the fresh channel it was given, which nobody reads; the next cron
job reads `v2`, finds its fingerprint unchanged and sends nothing. `LastSHA` is
the fingerprint of `v2` while the last event on `dataSync` carried `v1`, and it
stays so for as long as Redis holds `v2`. -/
theorem resync_loses_update :
    (let s := (Run.start { (default : Sync) with Interval := 30 }).run (Hooks.plain true)
      [.syncFetch (.ofJSON (lit "v1")), .syncSend, .receive,
        .resync 0 (.ofJSON (lit "v2")), .resync 0 (.ofJSON (lit "v2")),
        .resync 0 (.ofJSON (lit "v2")),
        .fire, .job 0 (.ofJSON (lit "v2")), .job 0 (.ofJSON (lit "v2")),
        .job 0 (.ofJSON (lit "v2")), .job 0 (.ofJSON (lit "v2"))]
    s.rs.LastSHA = generateSHA (Hooks.plain true) (lit "v2") ∧
      lastSent s.trace = some ⟨lit "v1", []⟩ ∧ s.jobs = [.done] ∧ s.resyncs = [.done] ∧
      generateSHA (Hooks.plain true) (lit "v1") ≠ generateSHA (Hooks.plain true) (lit "v2")) := by
  decide

/-! ## A refused spec -/

theorem CronJob.step_interval (hk : Hooks) (r : Replies) (rs : Sync) (j : CronJob) :
    (j.step hk r rs).2.1.Interval = rs.Interval := by
  cases j with
  | written prev res =>
    rcases res with _ | data
    · rfl
    · simp only [CronJob.step]; split_ifs <;> rfl
  | _ => simp [CronJob.step]

theorem ResyncJob.step_interval (hk : Hooks) (r : Replies) (rs : Sync) (j : ResyncJob) :
    (j.step hk r rs).2.1.Interval = rs.Interval := by
  cases j with
  | written res => rcases res with _ | data <;> rfl
  | _ => simp [ResyncJob.step]

/-- No step changes the polling interval. -/
theorem Run.step_interval (hk : Hooks) (s : Run) (a : Action) :
    (s.step hk a).rs.Interval = s.rs.Interval := by
  cases a with
  | syncFetch r =>
    simp only [Run.step]
    split
    · unfold Run.syncFetch
      rw [fetchAndEmit_eq]
      split <;> (rename_i heq; simp [← (Prod.mk.inj heq).1])
    · rfl
  | job i r =>
    simp only [Run.step, Run.jobStep]
    split
    · rfl
    · split <;> rfl
    · exact CronJob.step_interval ..
  | resync i r =>
    simp only [Run.step, Run.resyncStep]
    split
    · rfl
    · exact ResyncJob.step_interval ..
  | receive => simp only [Run.step, Run.receive]; split <;> (try split) <;> (try split) <;> rfl
  | _ => simp only [Run.step]; repeat (first | rfl | split)

/-- With interval 0 `AddFunc` refuses `Sync`'s spec, so in every interleaving no
cron job ever starts: after `Sync`'s initial fetch, Redis is read only by
resyncs. -/
theorem Run.jobs_nil_of_interval_zero (hk : Hooks) {rs : Sync} (h0 : rs.Interval = 0)
    (acts : List Action) : ((Run.start rs).run hk acts).jobs = [] := by
  suffices ∀ (acts : List Action) (s : Run), s.rs.Interval = 0 → s.jobs = [] →
      (s.run hk acts).jobs = [] from this acts _ h0 rfl
  intro acts
  induction acts with
  | nil => exact fun _ _ h => h
  | cons a acts ih =>
    intro s hi hj
    have hnone : s.rs.cronSchedule = none := by
      rw [Sync.cronSchedule, parse_cronSpec, if_pos (by rw [hi]; rfl)]; rfl
    refine ih _ (by rw [Run.step_interval, hi]) ?_
    cases a with
    | fire => simp [Run.step, hnone, hj]
    | job i r => simp [Run.step, Run.jobStep, hj]
    | syncFetch r => simp only [Run.step]; split <;> (try unfold Run.syncFetch; split) <;> exact hj
    | _ => simp only [Run.step, Run.resyncStep, Run.receive]; repeat (first | exact hj | split)

end RedisSync
