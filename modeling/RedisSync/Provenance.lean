import RedisSync.Delivery
import RedisSync.Fingerprint

/-!
# Every document the store receives was read from Redis

`processSyncData` hands the store whatever it takes off `dataSync`. Two kinds of
goroutine put documents there: `Sync`, once, with the document of its initial
`fetchData`, and each cron job, with the document of its own `fetchData`. Each resync
sends on a fresh channel, which nothing reads. Every one of these documents passed,
in that `fetchData`, through the write of `LastSHA` (`redis_sync.go` lines 232-235
and 266-269), so it is one of `Run.writes`.

`ReadInv` says this of every document in flight: the one `Sync` is about to send,
the one in `dataSync`, and that of each cron job between its write and its send.
Along every interleaving of `Start`, every document `processSyncData` takes is one a
fetch of the run wrote (`Run.deliveries_read`). Read on a prefix of the actions, the
same theorem says the write came before the delivery.
-/

namespace RedisSync

/-- The document a cron job holds for its send, from its write to its send. -/
def CronJob.held : CronJob → Option GoString
  | .written _ res => writtenPayload res
  | .sending ev => some ev.FlagData
  | _ => none

/-- A cron job's step holds only what it held or what the step writes. -/
theorem CronJob.held_step (hk : Hooks) (r : Replies) (rs : Sync) (j : CronJob) :
    ∀ d ∈ (j.step hk r rs).1.held, d ∈ j.held ∨ d ∈ j.toWrite := by
  cases j with
  | read prev res => exact fun _ hd => .inr hd
  | written prev res =>
    rcases res with _ | data
    · simp [CronJob.step, CronJob.held]
    · simp only [CronJob.step]
      split_ifs with h1 <;> simp [CronJob.held, writtenPayload, h1]
  | _ => simp [CronJob.step, CronJob.held]

/-- Every document in flight is one of the payloads `W`. -/
structure ReadInv (W : List GoString) (s : Run) : Prop where
  pending : ∀ ev, s.syncTask = .sending ev → ev.FlagData ∈ W
  buffered : ∀ ev ∈ s.dataSync, ev.FlagData ∈ W
  jobs : ∀ j ∈ s.jobs, ∀ d ∈ j.held, d ∈ W

section
variable {hk : Hooks} {W : List GoString}

theorem ReadInv.mono {s : Run} (h : ReadInv W s) {W' : List GoString} (hW : W ⊆ W') :
    ReadInv W' s :=
  ⟨fun ev he => hW (h.pending ev he), fun ev he => hW (h.buffered ev he),
    fun j hj d hd => hW (h.jobs j hj d hd)⟩

/-- `ReadInv` reads `Sync`'s task, the channel and the cron jobs only. -/
theorem ReadInv.frame {s t : Run} (h : ReadInv W s) (h1 : t.syncTask = s.syncTask)
    (h2 : t.dataSync = s.dataSync) (h3 : t.jobs = s.jobs) : ReadInv W t :=
  ⟨h1 ▸ h.pending, h2 ▸ h.buffered, h3 ▸ h.jobs⟩

theorem ReadInv.syncFetch {s : Run} (h : ReadInv W s) (r : Replies) :
    ReadInv (W ++ (writtenPayload (fetchResult hk r)).toList) (s.syncFetch hk r) := by
  unfold Run.syncFetch
  rw [fetchAndEmit_eq]
  generalize fetchResult hk r = res
  have hm := h.mono (List.subset_append_left W (writtenPayload res).toList)
  rcases res with e | p
  · exact ⟨fun _ h' => (nomatch h'), hm.buffered, hm.jobs⟩
  · by_cases hp : p = []
    · simp only [hp, if_true] at hm ⊢
      exact ⟨fun _ h' => (nomatch h'), hm.buffered, hm.jobs⟩
    · simp only [hp, if_false]
      refine ⟨?_, hm.buffered, hm.jobs⟩
      rintro _ ⟨⟩
      simp [writtenPayload, hp]

theorem ReadInv.jobStep {s : Run} (h : ReadInv W s) (i : Nat) (r : Replies) :
    ReadInv (W ++ (s.jobs[i]?.bind CronJob.toWrite).toList) (s.jobStep hk i r) := by
  have hm := h.mono (List.subset_append_left W (s.jobs[i]?.bind CronJob.toWrite).toList)
  unfold Run.jobStep
  split
  · exact hm
  · next ev hj =>
    split
    · refine ⟨hm.pending, ?_, fun j hm' => ?_⟩
      · rintro ev' hev
        rcases List.mem_append.mp hev with hev | hev
        · exact hm.buffered ev' hev
        · rw [List.mem_singleton.mp hev]
          exact hm.jobs _ (List.getElem?_mem hj) _ rfl
      · rcases List.mem_or_eq_of_mem_set hm' with hm' | rfl
        exacts [hm.jobs j hm', fun _ h' => (nomatch h')]
    · exact hm
  · next j _ hj =>
    refine ⟨hm.pending, hm.buffered, fun j' hm' d hd => ?_⟩
    rcases List.mem_or_eq_of_mem_set hm' with hm' | rfl
    · exact hm.jobs j' hm' d hd
    · rcases CronJob.held_step hk r s.rs j d hd with hd | hd
      · exact hm.jobs j (List.getElem?_mem hj) d hd
      · simp [hj, hd]

/-- A step keeps `ReadInv`, with what it writes added to the payloads. -/
theorem ReadInv.step {s : Run} (h : ReadInv W s) (a : Action) :
    ReadInv (W ++ (s.written hk a).toList) (s.step hk a) := by
  cases a with
  | syncFetch r =>
    simp only [Run.step, Run.written]
    split
    · exact h.syncFetch r
    · simpa using h
  | job i r => exact h.jobStep i r
  | resync i r =>
    refine (h.frame ?_ ?_ ?_).mono (List.subset_append_left _ _) <;>
      simp only [Run.step, Run.resyncStep] <;> split <;> rfl
  | syncSend =>
    suffices ReadInv W (s.step hk .syncSend) from this.mono (List.subset_append_left _ _)
    simp only [Run.step]
    split
    · next ev hst =>
      split
      · refine ⟨fun _ h' => (nomatch h'), fun ev' hev => ?_, h.jobs⟩
        rcases List.mem_append.mp hev with hev | hev
        · exact h.buffered ev' hev
        · exact List.mem_singleton.mp hev ▸ h.pending ev hst
      · exact h
    · exact h
  | syncStop =>
    suffices ReadInv W (s.step hk .syncStop) from this.mono (List.subset_append_left _ _)
    simp only [Run.step]
    split
    · exact ⟨fun _ h' => (nomatch h'), h.buffered, h.jobs⟩
    · exact h
  | fire =>
    suffices ReadInv W (s.step hk .fire) from this.mono (List.subset_append_left _ _)
    simp only [Run.step]
    split
    · refine ⟨h.pending, h.buffered, fun j hj => ?_⟩
      rcases List.mem_append.mp hj with hj | hj
      · exact h.jobs j hj
      · rw [List.mem_singleton.mp hj]; exact fun _ h' => (nomatch h')
    · exact h
  | receive =>
    suffices ReadInv W (s.step hk .receive) from this.mono (List.subset_append_left _ _)
    simp only [Run.step, Run.receive]
    split
    · exact h
    · split
      · exact h
      · next ev rest hd =>
        have hb : ∀ ev' ∈ rest, ev'.FlagData ∈ W := fun ev' he =>
          h.buffered ev' (hd ▸ List.mem_cons_of_mem ev he)
        split <;> exact ⟨h.pending, hb, h.jobs⟩
  | _ =>
    refine (h.frame ?_ ?_ ?_).mono (List.subset_append_left _ _) <;>
      simp only [Run.step] <;> repeat (first | rfl | split)

/-- What `processSyncData` takes in a step is in flight before it. -/
theorem ReadInv.delivered {s : Run} (h : ReadInv W s) (a : Action) :
    ∀ ev ∈ s.delivered a, ev.FlagData ∈ W := by
  intro ev hev
  cases a with
  | receive =>
    simp only [Run.delivered] at hev
    split at hev
    · cases hev
    · exact h.buffered ev (List.mem_of_mem_head? hev)
  | _ => cases hev

theorem ReadInv.run (acts : List Action) :
    ∀ {s : Run} {W : List GoString}, ReadInv W s →
      (∀ ev ∈ s.deliveries hk acts, ev.FlagData ∈ W ++ s.writes hk acts) ∧
        ReadInv (W ++ s.writes hk acts) (s.run hk acts) := by
  induction acts with
  | nil => intro s W h; simpa [Run.deliveries, Run.writes] using h
  | cons a acts ih =>
    intro s W h
    obtain ⟨hd, hi⟩ := ih (h.step a)
    simp only [Run.writes, ← List.append_assoc]
    refine ⟨fun ev hev => ?_, hi⟩
    rcases List.mem_append.mp hev with hev | hev
    · exact List.mem_append_left _
        (List.mem_append_left _ (h.delivered a ev (Option.mem_toList.mp hev)))
    · exact hd ev hev

end

end RedisSync
