import RedisSync.Service

/-!
# What reaches the store, when the service is ready, and that `Start` returns

`Service.Start` (`service.go` lines 83-128) connects `Sync` to the store through
one channel, `dataSync`, of capacity one: `Sync`'s initial send and the cron jobs'
sends put events in, and `processSyncData` (lines 131-150) takes them out one at a
time and hands each to `updateStoreFromSyncData`. Four things hold along every
interleaving of the goroutines of a `Run`.

- The channel loses, duplicates and reorders nothing: the events sent are the
  events the consumer took, in order, followed by what is still buffered, and the
  buffer never holds more than one. One resync goroutine is started per taken
  event for which the evaluator asked for one (`Run.deliveries_spec`).
- Every event sent carries a non-empty document and the provider's URI, so the
  empty-data branch of `updateStoreFromSyncData` is never taken under `Start`
  (`Run.deliveries_wellSent`); `processSyncData` emits the source of each event
  the store accepts, in order (`Run.emits_eq`).
- `IsReady` (`redis_sync.go` lines 195-197, `service.go` lines 220-222) turns true
  exactly when `Sync`'s initial fetch has succeeded and its event, if it had one,
  has been put on the channel; it never turns false again (`Run.isReady_spec`).
- `Start` cannot hang: once the group's context is done, a few steps of its three
  goroutines and `g.Wait()` make it return, since `Sync`'s initial send, the one
  send they make without a `select`, always finds the channel empty
  (`Run.start_returns`).

The consumer's takings are not part of a `Run`'s state: `Run.deliveries` reads
them off the actions, step by step, with the guards of `Run.receive`.
-/

namespace RedisSync

/-! ## Events on `dataSync` -/

/-- The event a happening sent on `dataSync`, if it sent one. -/
def Happening.sent? : Happening → Option DataSync
  | .sent ev => some ev
  | _ => none

/-- The events sent on `dataSync` in `t`, in order. -/
def sentEvents (t : List Happening) : List DataSync := t.filterMap Happening.sent?

@[simp] theorem sentEvents_append (t u : List Happening) :
    sentEvents (t ++ u) = sentEvents t ++ sentEvents u := List.filterMap_append t u _

@[simp] theorem sentEvents_sent (ev : DataSync) : sentEvents [.sent ev] = [ev] := rfl

@[simp] theorem sentEvents_cancel : sentEvents [.cancel] = [] := rfl

@[simp] theorem sentEvents_fetched (res : Except GoError GoString) :
    sentEvents [.fetched res] = [] := rfl

/-- The event `processSyncData` takes off `dataSync` in the step `a`, if it takes
one. -/
def Run.delivered (s : Run) : Action → Option DataSync
  | .receive => if s.consumerDone then none else s.dataSync.head?
  | _ => none

/-- The events `processSyncData` takes off `dataSync` along the actions, in order. -/
def Run.deliveries (hk : Hooks) : Run → List Action → List DataSync
  | _, [] => []
  | s, a :: acts => (s.delivered a).toList ++ (s.step hk a).deliveries hk acts

/-- The source `processSyncData` hands to `syncService.Emit` in the step `a`: that of
the event it takes, once `updateStoreFromSyncData` returned no error. -/
def Run.emitted (hk : Hooks) (s : Run) (a : Action) : Option GoString :=
  ((s.delivered a).filter fun ev => (updateStoreFromSyncData hk ev).isOk).map DataSync.Source

/-- The sources `processSyncData` emits along the actions, in order. -/
def Run.emits (hk : Hooks) : Run → List Action → List GoString
  | _, [] => []
  | s, a :: acts => (s.emitted hk a).toList ++ (s.step hk a).emits hk acts

/-- `processSyncData` emits once per event it takes that the store accepts, in
order, with the event's source. -/
theorem Run.emits_eq (hk : Hooks) (acts : List Action) : ∀ s : Run,
    s.emits hk acts =
      ((s.deliveries hk acts).filter fun ev => (updateStoreFromSyncData hk ev).isOk).map
        DataSync.Source := by
  induction acts with
  | nil => intro; rfl
  | cons a acts ih =>
    intro s
    cases h : s.delivered a with
    | none => simp [Run.emits, Run.deliveries, Run.emitted, h, ih]
    | some ev =>
      by_cases hok : (updateStoreFromSyncData hk ev).isOk <;>
        simp [Run.emits, Run.deliveries, Run.emitted, Option.filter, h, hok, ih]

/-- Whether handling `ev` starts a resync goroutine: `updateStoreFromSyncData`
returned without error and the evaluator asked for a resync. -/
def startsResync (hk : Hooks) (ev : DataSync) : Bool :=
  decide (updateStoreFromSyncData hk ev = .ok true)

theorem Run.syncFetch_frame (hk : Hooks) (r : Replies) (s : Run) :
    sentEvents (s.syncFetch hk r).trace = sentEvents s.trace ∧
      (s.syncFetch hk r).dataSync = s.dataSync ∧ (s.syncFetch hk r).resyncs = s.resyncs := by
  unfold Run.syncFetch
  split <;> simp

/-! ## The channel -/

/-- The channel's account once the consumer has taken `taken`: the events sent are
those taken followed by the buffer, which holds at most one, and one resync
goroutine was started per taken event that asked for one. -/
structure ChannelInv (hk : Hooks) (taken : List DataSync) (s : Run) : Prop where
  sent : sentEvents s.trace = taken ++ s.dataSync
  capacity : s.dataSync.length ≤ 1
  resyncs : s.resyncs.length = taken.countP (startsResync hk)

variable {hk : Hooks} {taken : List DataSync}

/-- A step that sends nothing, leaves the buffer, and starts no resync. -/
theorem ChannelInv.quiet {s t : Run} (h : ChannelInv hk taken s)
    (h1 : sentEvents t.trace = sentEvents s.trace) (h2 : t.dataSync = s.dataSync)
    (h3 : t.resyncs.length = s.resyncs.length) : ChannelInv hk taken t :=
  ⟨by rw [h1, h2, h.sent], h2 ▸ h.capacity, h3.trans h.resyncs⟩

/-- A send into the empty buffer. -/
theorem ChannelInv.send {s t : Run} (h : ChannelInv hk taken s) (ev : DataSync)
    (hlen : s.dataSync.length < 1) (h1 : t.trace = s.trace ++ [.sent ev])
    (h2 : t.dataSync = s.dataSync ++ [ev]) (h3 : t.resyncs = s.resyncs) :
    ChannelInv hk taken t := by
  refine ⟨by rw [h1, h2, sentEvents_append, h.sent]; simp, ?_, h3 ▸ h.resyncs⟩
  rw [h2, List.length_append]
  simp only [List.length_singleton]
  omega

theorem ChannelInv.jobStep {s : Run} (h : ChannelInv hk taken s) (i : Nat) (r : Replies) :
    ChannelInv hk taken (s.jobStep hk i r) := by
  unfold Run.jobStep
  split
  · exact h
  · split
    · exact h.send _ ‹_› rfl rfl rfl
    · exact h
  · exact h.quiet rfl rfl rfl

theorem ChannelInv.receive {s : Run} (h : ChannelInv hk taken s) :
    ChannelInv hk (taken ++ (s.delivered .receive).toList) (s.receive hk) := by
  unfold Run.receive Run.delivered
  by_cases hc : s.consumerDone
  · simpa [hc] using h
  · obtain ⟨hsent, hcap, hres⟩ := h
    cases hd : s.dataSync with
    | nil => simpa [hc, hd] using (⟨hsent, hcap, hres⟩ : ChannelInv hk taken s)
    | cons ev rest =>
      rw [hd] at hsent hcap
      have hsent' : sentEvents s.trace = (taken ++ [ev]) ++ rest := by simpa using hsent
      have hcap' : rest.length ≤ 1 := Nat.le_of_succ_le hcap
      simp only [hc, Bool.false_eq_true, if_false, List.head?_cons, Option.toList_some]
      split
      · next hu => exact ⟨hsent', hcap', by simp [hres, startsResync, hu]⟩
      · next hu => exact ⟨hsent', hcap', by simpa [hres, startsResync] using hu⟩

theorem ChannelInv.step {s : Run} (h : ChannelInv hk taken s) (a : Action) :
    ChannelInv hk (taken ++ (s.delivered a).toList) (s.step hk a) := by
  cases a with
  | receive => exact h.receive
  | job i r => simpa [Run.delivered] using h.jobStep i r
  | resync i r =>
    simp only [Run.delivered, Option.toList_none, List.append_nil, Run.step, Run.resyncStep]
    split
    · exact h
    · exact h.quiet rfl rfl (List.length_set ..)
  | syncFetch r =>
    simp only [Run.delivered, Option.toList_none, List.append_nil, Run.step]
    split
    · obtain ⟨h1, h2, h3⟩ := Run.syncFetch_frame hk r s
      exact h.quiet h1 h2 (congrArg List.length h3)
    · exact h
  | syncSend =>
    simp only [Run.delivered, Option.toList_none, List.append_nil, Run.step]
    split
    · split
      · exact h.send _ ‹_› rfl rfl rfl
      · exact h
    · exact h
  | cancel =>
    simp only [Run.delivered, Option.toList_none, List.append_nil, Run.step]
    split
    · exact h
    · exact h.quiet (by simp) rfl rfl
  | _ =>
    simp only [Run.delivered, Option.toList_none, List.append_nil, Run.step]
    repeat (first | exact h | exact h.quiet rfl rfl rfl | split)

theorem ChannelInv.run (acts : List Action) :
    ∀ {s : Run} {taken : List DataSync}, ChannelInv hk taken s →
      ChannelInv hk (taken ++ s.deliveries hk acts) (s.run hk acts) := by
  induction acts with
  | nil => intro s taken h; simpa [Run.deliveries] using h
  | cons a acts ih =>
    intro s taken h
    simpa [Run.deliveries] using ih (h.step a)

/-- Along every interleaving of `Start`, `dataSync` neither loses, duplicates nor
reorders an event: the events sent on it are the events `processSyncData` took,
in order, followed by the one still buffered, if any. Each resync goroutine was
started by a taken event for which `updateStoreFromSyncData` returned a required
resync, one per such event. -/
theorem Run.deliveries_spec (hk : Hooks) (rs : Sync) (acts : List Action) :
    sentEvents ((Run.start rs).run hk acts).trace =
        (Run.start rs).deliveries hk acts ++ ((Run.start rs).run hk acts).dataSync ∧
      ((Run.start rs).run hk acts).dataSync.length ≤ 1 ∧
      ((Run.start rs).run hk acts).resyncs.length =
        ((Run.start rs).deliveries hk acts).countP (startsResync hk) := by
  have h := ChannelInv.run acts (⟨rfl, Nat.zero_le _, rfl⟩ : ChannelInv hk [] (Run.start rs))
  exact ⟨h.sent, h.capacity, h.resyncs⟩

/-! ## What is sent -/

/-- An event as `Sync` and its cron jobs build it: a non-empty document, with the
provider's URI as its source. -/
def WellSent (uri : GoString) (ev : DataSync) : Prop := ev.FlagData ≠ [] ∧ ev.Source = uri

/-- A cron job that moves to its send holds a non-empty document and the URI of
the provider it compared on. -/
theorem CronJob.step_sending {hk : Hooks} {r : Replies} {rs : Sync} {j : CronJob}
    {ev : DataSync} (h : (j.step hk r rs).1 = .sending ev) : WellSent rs.URI ev := by
  cases j with
  | written prev res =>
    rcases res with _ | data
    · cases h
    · simp only [CronJob.step] at h
      split_ifs at h with h1
      cases h
      exact ⟨h1, rfl⟩
  | _ => simp [CronJob.step] at h

/-- The provider keeps its URI; every event sent, the event `Sync` is about to send,
and the event of every cron job about to send are well sent. -/
structure SentInv (uri : GoString) (s : Run) : Prop where
  uri_eq : s.rs.URI = uri
  sent : ∀ ev ∈ sentEvents s.trace, WellSent uri ev
  pending : ∀ ev, s.syncTask = .sending ev → WellSent uri ev
  jobs : ∀ ev, CronJob.sending ev ∈ s.jobs → WellSent uri ev

section
variable {uri : GoString}

theorem SentInv.syncFetch {s : Run} (h : SentInv uri s) (r : Replies) :
    SentInv uri (s.syncFetch hk r) := by
  unfold Run.syncFetch
  rw [fetchAndEmit_eq]
  rcases fetchResult hk r with e | p
  · exact ⟨by simpa using h.uri_eq, by simpa using h.sent, fun _ h' => (nomatch h'), h.jobs⟩
  · by_cases hp : p = []
    · simp only [hp, if_true]
      exact ⟨by simpa using h.uri_eq, by simpa using h.sent, fun _ h' => (nomatch h'), h.jobs⟩
    · simp only [hp, if_false]
      refine ⟨by simpa using h.uri_eq, by simpa using h.sent, ?_, h.jobs⟩
      rintro _ ⟨⟩
      exact ⟨hp, h.uri_eq⟩

theorem SentInv.jobStep {s : Run} (h : SentInv uri s) (i : Nat) (r : Replies) :
    SentInv uri (s.jobStep hk i r) := by
  unfold Run.jobStep
  split
  · exact h
  · next ev hj =>
    split
    · refine ⟨h.uri_eq, ?_, h.pending, fun ev' hm => ?_⟩
      · simp only [sentEvents_append, sentEvents_sent, List.mem_append, List.mem_singleton]
        rintro ev' (hm | rfl)
        exacts [h.sent ev' hm, h.jobs _ (List.getElem?_mem hj)]
      · rcases List.mem_or_eq_of_mem_set hm with hm | hm
        exacts [h.jobs ev' hm, nomatch hm]
    · exact h
  · refine ⟨by simpa using h.uri_eq, h.sent, h.pending, fun ev' hm => ?_⟩
    rcases List.mem_or_eq_of_mem_set hm with hm | hm
    · exact h.jobs ev' hm
    · exact h.uri_eq ▸ CronJob.step_sending hm.symm

theorem SentInv.step {s : Run} (h : SentInv uri s) (a : Action) :
    SentInv uri (s.step hk a) := by
  cases a with
  | job i r => exact h.jobStep i r
  | syncFetch r =>
    simp only [Run.step]
    split
    · exact h.syncFetch r
    · exact h
  | syncSend =>
    simp only [Run.step]
    split
    · next ev hst =>
      split
      · refine ⟨h.uri_eq, ?_, fun _ h' => (nomatch h'), h.jobs⟩
        simp only [sentEvents_append, sentEvents_sent, List.mem_append, List.mem_singleton]
        rintro ev' (hm | rfl)
        exacts [h.sent ev' hm, h.pending _ hst]
      · exact h
    · exact h
  | cancel =>
    simp only [Run.step]
    split
    · exact h
    · exact ⟨h.uri_eq, by simpa using h.sent, h.pending, h.jobs⟩
  | fire =>
    simp only [Run.step]
    split
    · refine ⟨h.uri_eq, h.sent, h.pending, fun ev hm => ?_⟩
      rcases List.mem_append.mp hm with hm | hm
      · exact h.jobs ev hm
      · simp at hm
    · exact h
  | resync i r =>
    simp only [Run.step, Run.resyncStep]
    split
    · exact h
    · exact ⟨by simpa using h.uri_eq, h.sent, h.pending, h.jobs⟩
  | syncStop =>
    simp only [Run.step]
    split
    · exact ⟨h.uri_eq, h.sent, fun _ h' => (nomatch h'), h.jobs⟩
    · exact h
  | receive =>
    simp only [Run.step, Run.receive]
    repeat (first | exact h | exact ⟨h.uri_eq, h.sent, h.pending, h.jobs⟩ | split)
  | _ =>
    simp only [Run.step]
    repeat (first | exact h | exact ⟨h.uri_eq, h.sent, h.pending, h.jobs⟩ | split)

theorem SentInv.run (acts : List Action) :
    ∀ {s : Run}, SentInv uri s → SentInv uri (s.run hk acts) := by
  induction acts with
  | nil => exact id
  | cons a acts ih => exact fun h => ih (h.step a)

end

/-- Along every interleaving of `Start`, every event `processSyncData` takes off
`dataSync` carries a non-empty document and the provider's URI: the branch of
`updateStoreFromSyncData` that skips empty flag data is never taken, and each
document taken reaches the evaluator's `SetState`. -/
theorem Run.deliveries_wellSent (hk : Hooks) (rs : Sync) (acts : List Action) :
    ∀ ev ∈ (Run.start rs).deliveries hk acts, ev.FlagData ≠ [] ∧ ev.Source = rs.URI := by
  intro ev hev
  have hc := ChannelInv.run acts (⟨rfl, Nat.zero_le _, rfl⟩ : ChannelInv hk [] (Run.start rs))
  have hs : SentInv rs.URI ((Run.start rs).run hk acts) := SentInv.run acts
    ⟨rfl, fun _ h => (nomatch h), fun _ h => (nomatch h), fun _ h => (nomatch h)⟩
  exact hs.sent ev (by rw [hc.sent]; exact List.mem_append_left _ (by simpa using hev))

/-! ## Readiness -/

/-- `rs.IsReady()`. -/
def Sync.isReady (rs : Sync) : Bool := rs.ready

/-- `s.IsReady()` of the service: its provider's `IsReady()`. -/
def Run.isReady (s : Run) : Bool := s.rs.isReady

/-- The initial fetch returned the document `p`, and `p` was sent if non-empty. -/
def InitialDone (uri : GoString) (t : List Happening) : Prop :=
  ∃ p, initialOutcome t = some (.ok p) ∧ (p ≠ [] → ⟨p, uri⟩ ∈ sentEvents t)

/-- What `Sync`'s stage says of the initial fetch the trace records and of its
event: nothing yet while fetching; a non-empty document about to be sent; once
`Sync` waits, or returned after waiting, `InitialDone`. -/
def InitialSent (uri : GoString) (t : List Happening) : SyncTask → Prop
  | .fetching => initialOutcome t = none
  | .sending ev => ∃ p, initialOutcome t = some (.ok p) ∧ ev = ⟨p, uri⟩
  | .waiting => InitialDone uri t
  | .returned none => InitialDone uri t
  | .returned (some _) => True

/-- What the trace says of the initial fetch stays true as happenings other than a
fetch are appended. -/
theorem InitialSent.append {uri : GoString} {t u : List Happening} {st : SyncTask}
    (h : InitialSent uri t st) (hu : initialOutcome u = none) : InitialSent uri (t ++ u) st := by
  have hdone : InitialDone uri t → InitialDone uri (t ++ u) := fun ⟨p, hp, hs⟩ =>
    ⟨p, by simp [initialOutcome_append, hp], fun hne => by simp [hs hne]⟩
  rcases st with _ | ev | _ | _ | _
  · simp only [InitialSent, initialOutcome_append, hu] at h ⊢; simp [h]
  · obtain ⟨p, hp, rfl⟩ := h
    exact ⟨p, by simp [initialOutcome_append, hp], rfl⟩
  · exact hdone h
  · exact hdone h
  · trivial

/-- The provider is ready exactly when `Sync` waits, or returned after waiting; its
stage accounts for the initial fetch; it keeps its URI. -/
structure ReadyInv (uri : GoString) (s : Run) : Prop where
  uri_eq : s.rs.URI = uri
  ready : s.rs.ready = true ↔ s.syncTask = .waiting ∨ s.syncTask = .returned none
  initial : InitialSent uri s.trace s.syncTask

section
variable {uri : GoString}

/-- A step that leaves `Sync`'s stage and the provider's readiness, and appends no
fetch to the trace. -/
theorem ReadyInv.quiet {s t : Run} (h : ReadyInv uri s) (u : List Happening)
    (ht : t.trace = s.trace ++ u) (hu : initialOutcome u = none) (h1 : t.rs.URI = s.rs.URI)
    (h2 : t.rs.ready = s.rs.ready) (h3 : t.syncTask = s.syncTask) : ReadyInv uri t :=
  ⟨h1.trans h.uri_eq, by rw [h2, h3]; exact h.ready, by rw [ht, h3]; exact h.initial.append hu⟩

theorem ReadyInv.same {s t : Run} (h : ReadyInv uri s) (ht : t.trace = s.trace)
    (h1 : t.rs = s.rs) (h3 : t.syncTask = s.syncTask) : ReadyInv uri t :=
  h.quiet [] (by simp [ht]) rfl (by rw [h1]) (by rw [h1]) h3

theorem ReadyInv.syncFetch {s : Run} (h : ReadyInv uri s) (r : Replies)
    (hf : s.syncTask = .fetching) : ReadyInv uri (s.syncFetch hk r) := by
  have hinit : initialOutcome s.trace = none := by simpa [InitialSent, hf] using h.initial
  have hready : s.rs.ready = false := by simpa [hf] using h.ready
  unfold Run.syncFetch
  rw [fetchAndEmit_eq]
  rcases fetchResult hk r with e | p
  · exact ⟨by simpa using h.uri_eq, by simp [hready], trivial⟩
  · by_cases hp : p = []
    · simp only [hp, if_true]
      refine ⟨by simpa using h.uri_eq, by simp, [], ?_, fun h' => absurd rfl h'⟩
      simp [initialOutcome_append, hinit, initialOutcome]
    · simp only [hp, if_false]
      refine ⟨by simpa using h.uri_eq, by simp [hready], p, ?_, by rw [h.uri_eq]⟩
      simp [initialOutcome_append, hinit, initialOutcome]

theorem ReadyInv.jobStep {s : Run} (h : ReadyInv uri s) (i : Nat) (r : Replies) :
    ReadyInv uri (s.jobStep hk i r) := by
  unfold Run.jobStep
  split
  · exact h
  · split
    · exact h.quiet [.sent _] rfl rfl rfl rfl rfl
    · exact h
  · exact h.quiet [] (List.append_nil _).symm rfl (by simp) (by simp) rfl

theorem ReadyInv.step {s : Run} (h : ReadyInv uri s) (a : Action) :
    ReadyInv uri (s.step hk a) := by
  cases a with
  | job i r => exact h.jobStep i r
  | syncFetch r =>
    simp only [Run.step]
    split
    · exact h.syncFetch r ‹_›
    · exact h
  | syncSend =>
    simp only [Run.step]
    split
    · next ev hst =>
      split
      · obtain ⟨p, hp, rfl⟩ :
            ∃ p, initialOutcome s.trace = some (.ok p) ∧ ev = ⟨p, uri⟩ := by
          simpa [InitialSent, hst] using h.initial
        refine ⟨h.uri_eq, by simp, p, by simp [initialOutcome_append, hp], fun _ => ?_⟩
        simp
      · exact h
    · exact h
  | syncStop =>
    simp only [Run.step]
    split
    · next hw =>
      have hi := h.initial
      rw [hw.1] at hi
      exact ⟨h.uri_eq, by simpa [hw.1] using h.ready, hi⟩
    · exact h
  | cancel =>
    simp only [Run.step]
    split
    · exact h
    · exact h.quiet [.cancel] rfl rfl rfl rfl rfl
  | resync i r =>
    simp only [Run.step, Run.resyncStep]
    split
    · exact h
    · exact h.quiet [] (List.append_nil _).symm rfl (by simp) (by simp) rfl
  | receive =>
    simp only [Run.step, Run.receive]
    repeat (first | exact h | exact h.same rfl rfl rfl | split)
  | _ =>
    simp only [Run.step]
    repeat (first | exact h | exact h.same rfl rfl rfl | split)

theorem ReadyInv.run (acts : List Action) :
    ∀ {s : Run}, ReadyInv uri s → ReadyInv uri (s.run hk acts) := by
  induction acts with
  | nil => exact id
  | cons a acts ih => exact fun h => ih (h.step a)

end

/-- No step makes a ready provider unready. -/
theorem Run.step_ready {s : Run} (h : s.rs.ready = true) (a : Action) :
    (s.step hk a).rs.ready = true := by
  cases a with
  | syncFetch r =>
    simp only [Run.step]
    split
    · unfold Run.syncFetch
      rw [fetchAndEmit_eq]
      split <;> (rename_i heq; simp [← (Prod.mk.inj heq).1, h])
    · exact h
  | job i r =>
    simp only [Run.step, Run.jobStep]
    split
    · exact h
    · split <;> exact h
    · simpa using h
  | resync i r =>
    simp only [Run.step, Run.resyncStep]
    split
    · exact h
    · simpa using h
  | syncSend => simp only [Run.step]; repeat (first | exact h | rfl | split)
  | receive => simp only [Run.step, Run.receive]; repeat (first | exact h | split)
  | _ => simp only [Run.step]; repeat (first | exact h | split)

theorem Run.run_ready {s : Run} (more : List Action) (h : s.rs.ready = true) :
    (s.run hk more).rs.ready = true := by
  induction more generalizing s with
  | nil => exact h
  | cons a more ih => exact ih (Run.step_ready h a)

/-- Along every interleaving of `Start` from a provider not yet ready, as
`NewRedisSync` builds it, `IsReady` is true exactly when `Sync` waits for the
context, or returned after waiting: its initial fetch succeeded, and the document
it returned, if non-empty, has been put on `dataSync`, though the consumer may not
have taken it yet. Once true, it stays true whatever the goroutines do next. -/
theorem Run.isReady_spec (hk : Hooks) {rs : Sync} (h0 : rs.isReady = false)
    (acts : List Action) :
    (((Run.start rs).run hk acts).isReady = true ↔
      ((Run.start rs).run hk acts).syncTask = .waiting ∨
        ((Run.start rs).run hk acts).syncTask = .returned none) ∧
    (((Run.start rs).run hk acts).isReady = true →
      ∃ p, initialOutcome ((Run.start rs).run hk acts).trace = some (.ok p) ∧
        (p ≠ [] → ⟨p, rs.URI⟩ ∈ sentEvents ((Run.start rs).run hk acts).trace)) ∧
    ∀ more, ((Run.start rs).run hk acts).isReady = true →
      (((Run.start rs).run hk acts).run hk more).isReady = true := by
  have h : ReadyInv rs.URI ((Run.start rs).run hk acts) := ReadyInv.run acts
    ⟨rfl, by simpa [Run.start] using h0, rfl⟩
  refine ⟨h.ready, fun hr => ?_, fun more hr => Run.run_ready more hr⟩
  rcases h.ready.mp hr with hw | hw <;>
    simpa [InitialSent, hw] using h.initial

/-- `Start` cannot hang once its context is done, by the caller's cancellation or by
a failed initial fetch: whatever the interleaving so far and whatever Redis answers,
`Sync`'s pending steps, the returns of the consumer and of the gRPC service, and
`g.Wait()` make it return. The one send of the three goroutines made without a
`select`, `Sync`'s initial send, always finds the channel empty; cron jobs blocked on
their send are not waited for. -/
theorem Run.start_returns (hk : Hooks) (rs : Sync) (acts : List Action)
    (hdone : ((Run.start rs).run hk acts).ctxDone = true) (r : Replies) :
    (((Run.start rs).run hk acts).run hk
      [.syncFetch r, .syncSend, .syncStop, .consumerStop, .grpcStop, .wait]).result.isSome :=
  (Run.Quiet.run acts fun _ => ⟨rfl, rfl, rfl⟩).returns hdone r

/-- Cancelling right after `Init`, with Redis answering the cancelled context, lets
`Start` return. -/
theorem start_returns_on_cancel :
    ((Run.start default).run (Hooks.plain false) [.cancel]).ctxDone = true ∧
      (((Run.start default).run (Hooks.plain false) [.cancel]).run (Hooks.plain false)
        [.syncFetch .canceled, .syncSend, .syncStop, .consumerStop, .grpcStop,
          .wait]).result.isSome :=
  ⟨rfl, Run.start_returns (Hooks.plain false) default [.cancel] rfl .canceled⟩

end RedisSync
