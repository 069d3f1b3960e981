import RedisSync.Service

/-!
# `LastSHA` across the whole service: the last write wins

`LastSHA` is one field of the provider, written without a lock by every
`fetchData` that returns a non-empty document (`redis_sync.go` lines 232-235 and
266-269): `Sync`'s initial fetch, each cron job and each resync goroutine. `Jobs`
shows, for one cron job against one resync, that the value left is the
fingerprint of the payload written last in real time. The same holds for the whole
service: along every interleaving of any number of cron jobs and resyncs, from
any state, `LastSHA` is the fingerprint of the last payload any fetch wrote, and
is untouched when none did (`Run.run_LastSHA`). What was read last, or sent last,
does not enter.

The writes are not part of a `Run`'s state: `Run.writes` reads them off the
actions, step by step, with the guards of `Run.step`.
-/

namespace RedisSync

/-! ## Writes -/

/-- What a fetch that returned `res` writes into `LastSHA`: its payload, when it is
non-empty. -/
def writtenPayload : Except GoError GoString → Option GoString
  | .ok p => if p = [] then none else some p
  | .error _ => none

theorem Sync.record_LastSHA (hk : Hooks) (rs : Sync) (res : Except GoError GoString) :
    (rs.record hk res).LastSHA = ((writtenPayload res).map (generateSHA hk)).getD rs.LastSHA := by
  rcases res with _ | p
  · rfl
  · by_cases hp : p = [] <;> simp [Sync.record, writtenPayload, hp]

/-- The payload a cron job's next step writes: the one its `fetchData` read, when it
is at the write. -/
def CronJob.toWrite : CronJob → Option GoString
  | .read _ res => writtenPayload res
  | _ => none

/-- The payload a resync's next step writes. -/
def ResyncJob.toWrite : ResyncJob → Option GoString
  | .read res => writtenPayload res
  | _ => none

/-- The payload written into `LastSHA` in the step `a`, if any: by `Sync`'s initial
fetch, or by the step of a cron job or of a resync that ends its `fetchData`. -/
def Run.written (hk : Hooks) (s : Run) : Action → Option GoString
  | .syncFetch r => if s.syncTask = .fetching then writtenPayload (fetchResult hk r) else none
  | .job i _ => s.jobs[i]?.bind CronJob.toWrite
  | .resync i _ => s.resyncs[i]?.bind ResyncJob.toWrite
  | _ => none

/-- The payloads written into `LastSHA` along the actions, in real-time order. -/
def Run.writes (hk : Hooks) : Run → List Action → List GoString
  | _, [] => []
  | s, a :: acts => (s.written hk a).toList ++ (s.step hk a).writes hk acts

/-! ## One step, a whole run -/

theorem CronJob.step_LastSHA (hk : Hooks) (r : Replies) (rs : Sync) (j : CronJob) :
    (j.step hk r rs).2.1.LastSHA = (j.toWrite.map (generateSHA hk)).getD rs.LastSHA := by
  cases j with
  | read prev res => exact Sync.record_LastSHA hk rs res
  | written prev res =>
    rcases res with _ | data
    · rfl
    · simp only [CronJob.step]; split_ifs <;> rfl
  | _ => rfl

theorem ResyncJob.step_LastSHA (hk : Hooks) (r : Replies) (rs : Sync) (j : ResyncJob) :
    (j.step hk r rs).2.1.LastSHA = (j.toWrite.map (generateSHA hk)).getD rs.LastSHA := by
  cases j with
  | read res => exact Sync.record_LastSHA hk rs res
  | written res => rcases res with _ | data <;> rfl
  | _ => rfl

variable {hk : Hooks}

/-- Each step leaves `LastSHA` as it was, or sets it to the fingerprint of the
payload it writes. -/
theorem Run.step_LastSHA (s : Run) (a : Action) :
    (s.step hk a).rs.LastSHA = ((s.written hk a).map (generateSHA hk)).getD s.rs.LastSHA := by
  cases a with
  | syncFetch r =>
    simp only [Run.step, Run.written]
    split
    · unfold Run.syncFetch
      rw [fetchAndEmit_eq]
      split <;> (rename_i heq; simp [← (Prod.mk.inj heq).1, Sync.record_LastSHA])
    · rfl
  | job i r =>
    simp only [Run.step, Run.jobStep, Run.written]
    split
    · next hj => rw [hj]; rfl
    · next hj => rw [hj]; split <;> rfl
    · next j _ hj => rw [hj]; exact CronJob.step_LastSHA hk r s.rs j
  | resync i r =>
    simp only [Run.step, Run.resyncStep, Run.written]
    cases s.resyncs[i]? with
    | none => rfl
    | some j => exact ResyncJob.step_LastSHA hk r s.rs j
  | receive => simp only [Run.step, Run.receive, Run.written]; repeat (first | rfl | split)
  | _ => simp only [Run.step, Run.written]; repeat (first | rfl | split)

/-- From any state, along every interleaving of `Sync`, the cron jobs, the resyncs
and the consumer, whatever Redis answers, `LastSHA` is the fingerprint of the last
payload a fetch wrote, in real time, and is unchanged when no fetch wrote one. -/
theorem Run.run_LastSHA (hk : Hooks) (acts : List Action) : ∀ s : Run,
    (s.run hk acts).rs.LastSHA =
      (((s.writes hk acts).getLast?).map (generateSHA hk)).getD s.rs.LastSHA := by
  induction acts with
  | nil => intro; rfl
  | cons a acts ih =>
    intro s
    rw [Run.run_cons, ih, Run.step_LastSHA, Run.writes, List.getLast?_append]
    cases ((s.step hk a).writes hk acts).getLast? <;> cases s.written hk a <;> rfl

/-- Along every interleaving, from any state, `LastSHA` is the fingerprint of the
last payload written, or what it was if nothing was; and it is empty, the value
for which a cron job that snapshots it sends any non-empty document it then reads,
exactly when it was empty and no fetch has yet written a document. -/
theorem Run.lastSHA_spec (hk : Hooks) (acts : List Action) (s : Run) :
    (s.run hk acts).rs.LastSHA =
        (((s.writes hk acts).getLast?).map (generateSHA hk)).getD s.rs.LastSHA ∧
      ((s.run hk acts).rs.LastSHA = [] ↔ s.rs.LastSHA = [] ∧ s.writes hk acts = []) := by
  refine ⟨Run.run_LastSHA hk acts s, ?_⟩
  rw [Run.run_LastSHA]
  cases hl : (s.writes hk acts).getLast? with
  | none => simp [List.getLast?_eq_none_iff.mp hl]
  | some p =>
    have hw : s.writes hk acts ≠ [] := fun h => by simp [h] at hl
    simpa [hw] using generateSHA_ne_nil hk p

end RedisSync
