import RedisSync.Fetch

/-!
# Fetch-and-maybe-emit cycles, one after another

The three callers of `fetchData`, each run to completion:

- the cron callback `Sync` installs (source lines 136-157), `cronCycle`, which
  sends when the snapshot `previousSHA` was empty or differs from the fingerprint
  the fetch left in `LastSHA`;
- `Sync`'s initial fetch (lines 159-170) and `ReSync` (lines 181-192), which send
  every non-empty payload; they differ only in the context of their error and in
  the ready flag, so both are `fetchAndEmit`.

A sequential run of `Sync` is its initial fetch followed, once the cron has
started, by cron cycles (`syncEvents`). Its events are exactly the non-empty
payloads whose fingerprint differs from that of the most recent earlier
non-empty payload (`syncEvents_eq_expectedEvents`). The invariant behind it,
`LastSHA` is the fingerprint of the last non-empty payload fetched
(`SeenLast`), is kept by every cycle (`cronCycle_spec`).
-/

namespace RedisSync

/-! ## One cycle -/

/-- The cron callback of `Sync`, run to completion: the provider afterwards and the
event it sends on `dataSync`, if any. -/
def cronCycle (hk : Hooks) (r : Replies) (rs : Sync) : Sync × Option DataSync :=
  let previousSHA := rs.LastSHA
  let (res, rs) := fetchData hk r rs
  (rs, match res with
    | .error _ => none
    | .ok data =>
      if data = [] then none
      else if previousSHA = [] then some ⟨data, rs.URI⟩
      else if previousSHA ≠ rs.LastSHA then some ⟨data, rs.URI⟩
      else none)

/-- A fetch that sends every non-empty payload, its error wrapped in `context`:
the provider afterwards, and the event or the error. -/
def fetchAndEmit (hk : Hooks) (context : GoString) (r : Replies) (rs : Sync) :
    Sync × Except GoError (Option DataSync) :=
  match fetchData hk r rs with
  | (.error err, rs) => (rs, .error (.wrap context err))
  | (.ok data, rs) => (rs, .ok (if data = [] then none else some ⟨data, rs.URI⟩))

/-- `Sync`'s initial fetch; on success the provider becomes ready and the cron
starts. -/
def initialSync (hk : Hooks) (r : Replies) (rs : Sync) : Sync × Except GoError (Option DataSync) :=
  match fetchAndEmit hk (lit "initial Redis fetch failed") r rs with
  | (rs, .ok ev) => ({ rs with ready := true }, .ok ev)
  | failed => failed

/-- `rs.ReSync(ctx, dataSync)`. -/
def reSync (hk : Hooks) (r : Replies) (rs : Sync) : Sync × Except GoError (Option DataSync) :=
  fetchAndEmit hk (lit "Redis resync failed") r rs

/-! ## Runs of cycles -/

/-- Cron cycles one after another, with the events they send in order. -/
def cronRun (hk : Hooks) : Sync → List Replies → Sync × List DataSync
  | rs, [] => (rs, [])
  | rs, r :: rest =>
    let (rs, ev) := cronCycle hk r rs
    let (rs, evs) := cronRun hk rs rest
    (rs, ev.toList ++ evs)

/-- The events a run of `Sync` sends: the initial fetch's, then those of the cron
cycles, which only run when the initial fetch succeeded. -/
def syncEvents (hk : Hooks) (rs : Sync) (r₀ : Replies) (cycles : List Replies) :
    List DataSync :=
  match initialSync hk r₀ rs with
  | (_, .error _) => []
  | (rs, .ok ev) => ev.toList ++ (cronRun hk rs cycles).2

/-! ## What a run should send -/

/-- The fingerprint `LastSHA` holds after `last` was the most recent non-empty
payload (`none`: there was none). -/
def lastSHA (hk : Hooks) : Option GoString → GoString
  | none => []
  | some q => generateSHA hk q

/-- Whether a non-empty payload `p` is news after `last`: the first non-empty
payload always is, a later one when its fingerprint differs. -/
def IsNews (hk : Hooks) (last : Option GoString) (p : GoString) : Prop :=
  ∀ q, last = some q → generateSHA hk q ≠ generateSHA hk p

instance (hk : Hooks) (last : Option GoString) (p : GoString) : Decidable (IsNews hk last p) :=
  match last with
  | none => isTrue fun _ h => nomatch h
  | some q =>
    decidable_of_iff (generateSHA hk q ≠ generateSHA hk p)
      ⟨fun h _ hq => Option.some.inj hq ▸ h, fun h => h q rfl⟩

/-- The events the run's fetch outcomes call for: the non-empty payloads that are
news, each with the provider's URI as source. Errors and empty payloads are
skipped and do not move `last`. -/
def expectedEvents (hk : Hooks) (uri : GoString) :
    Option GoString → List (Except GoError GoString) → List DataSync
  | _, [] => []
  | last, .error _ :: rest => expectedEvents hk uri last rest
  | last, .ok p :: rest =>
    if p = [] then expectedEvents hk uri last rest
    else if IsNews hk last p then ⟨p, uri⟩ :: expectedEvents hk uri (some p) rest
    else expectedEvents hk uri (some p) rest

/-- The fetch outcomes a run observes: the initial fetch's, and the cycles' only
when the initial fetch succeeded. -/
def observed (hk : Hooks) (r₀ : Replies) (cycles : List Replies) :
    List (Except GoError GoString) :=
  match fetchResult hk r₀ with
  | .error e => [.error e]
  | o => o :: cycles.map (fetchResult hk)

/-! ## The cycle invariant -/

/-- `LastSHA` is the fingerprint of the most recent non-empty payload `last`. -/
def SeenLast (hk : Hooks) (last : Option GoString) (rs : Sync) : Prop :=
  rs.LastSHA = lastSHA hk last

/-- What one outcome does to `last`. -/
def advance : Option GoString → Except GoError GoString → Option GoString
  | last, .ok p => if p = [] then last else some p
  | last, .error _ => last

theorem seenLast_record {hk : Hooks} {last : Option GoString} {rs : Sync}
    (h : SeenLast hk last rs) (o : Except GoError GoString) :
    SeenLast hk (advance last o) (rs.record hk o) := by
  rcases o with _ | p
  · exact h
  · by_cases hp : p = []
    · simpa [advance, hp] using h
    · simp [SeenLast, advance, Sync.record, lastSHA, hp]

@[simp] theorem lastSHA_eq_nil {hk : Hooks} {last : Option GoString} :
    lastSHA hk last = [] ↔ last = none := by
  cases last <;> simp [lastSHA, generateSHA_ne_nil]

/-- The event of a non-empty payload `p` after `last`, when it is news. -/
def newsEvent (hk : Hooks) (uri : GoString) (last : Option GoString) (p : GoString) :
    Option DataSync :=
  if IsNews hk last p then some ⟨p, uri⟩ else none

theorem isNews_iff {hk : Hooks} {last : Option GoString} {p : GoString} :
    IsNews hk last p ↔ lastSHA hk last = [] ∨ lastSHA hk last ≠ generateSHA hk p := by
  cases last <;> simp [IsNews, lastSHA, generateSHA_ne_nil]

/-- One cron cycle, from a provider whose `LastSHA` is the fingerprint of `last`:
it sends exactly the event the outcome calls for, and keeps the invariant. -/
theorem cronCycle_spec {hk : Hooks} {last : Option GoString} {rs : Sync}
    (h : SeenLast hk last rs) (r : Replies) :
    SeenLast hk (advance last (fetchResult hk r)) (cronCycle hk r rs).1 ∧
    (cronCycle hk r rs).1.URI = rs.URI ∧
    (cronCycle hk r rs).2 =
      (match fetchResult hk r with
       | .ok p => if p = [] then none else newsEvent hk rs.URI last p
       | .error _ => none) := by
  have hinv := seenLast_record h (fetchResult hk r)
  simp only [cronCycle, fetchData_eq]
  refine ⟨hinv, Sync.record_URI .., ?_⟩
  rcases fetchResult hk r with _ | p
  · rfl
  · by_cases hp : p = []
    · simp [hp]
    · rw [SeenLast] at h
      simp only [Sync.record, hp, if_false, newsEvent, isNews_iff, ← h]
      split_ifs <;> simp_all

theorem fetchAndEmit_eq (hk : Hooks) (context : GoString) (r : Replies) (rs : Sync) :
    fetchAndEmit hk context r rs =
      (rs.record hk (fetchResult hk r),
        match fetchResult hk r with
        | .error err => .error (.wrap context err)
        | .ok data => .ok (if data = [] then none else some ⟨data, rs.URI⟩)) := by
  unfold fetchAndEmit
  rw [fetchData_eq]
  rcases fetchResult hk r with _ | p <;> simp

/-- Cron cycles one after another, from a provider whose `LastSHA` is the
fingerprint of `last`, send exactly the events their outcomes call for. -/
theorem cronRun_events {hk : Hooks} (cycles : List Replies) :
    ∀ {last : Option GoString} {rs : Sync}, SeenLast hk last rs →
      (cronRun hk rs cycles).2 = expectedEvents hk rs.URI last (cycles.map (fetchResult hk)) := by
  induction cycles with
  | nil => intros; rfl
  | cons r rest ih =>
    intro last rs h
    obtain ⟨hinv, huri, hev⟩ := cronCycle_spec h r
    simp only [cronRun, List.map_cons]
    rw [ih hinv, huri, hev]
    rcases fetchResult hk r with _ | p
    · rfl
    · by_cases hp : p = []
      · simp [expectedEvents, advance, hp]
      · simp only [expectedEvents, advance, newsEvent, hp, if_false]
        split_ifs <;> rfl

/-- A run of `Sync` from a fresh provider, its initial fetch and then any number of
cron cycles one after another, sends exactly the non-empty payloads whose
fingerprint differs from that of the most recent earlier non-empty payload (the
first one always), each with the provider's URI as source; failed and empty
fetches neither send nor move change detection. -/
theorem syncEvents_eq_expectedEvents (hk : Hooks) (rs : Sync) (r₀ : Replies)
    (cycles : List Replies) :
    syncEvents hk { rs with LastSHA := [] } r₀ cycles =
      expectedEvents hk rs.URI none (observed hk r₀ cycles) := by
  unfold syncEvents initialSync observed
  rw [fetchAndEmit_eq]
  rcases fetchResult hk r₀ with e | p
  · rfl
  · have hinv := @seenLast_record hk none { rs with LastSHA := [] } rfl (.ok p)
    have hrun := @cronRun_events hk cycles _
      { ({ rs with LastSHA := [] }.record hk (.ok p)) with ready := true } hinv
    by_cases hp : p = []
    · simp_all [expectedEvents, advance]
    · simp_all [expectedEvents, advance, IsNews]

end RedisSync
