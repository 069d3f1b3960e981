import RedisSync.Delivery
import RedisSync.Connect

/-!
# The standalone service, from its command line to its goroutines

`startRedisSyncService` (`service.go` lines 308-362) reads the flags from `viper`
and hands them to `NewService` (lines 42-80). That builds the provider from the
Redis URI, gives it the configured polling interval whatever its value, and
creates the gRPC sync service with the URI as its one source. `Start` (lines
83-128) then runs the provider's `Init` (`redis_sync.go` lines 121-129), a `Ping`
of Redis, and starts its goroutines only once Redis has answered.

Composed with the invariants of `Delivery`, this is the service's contract towards
its gRPC subscribers: in every run `startRedisSyncService` starts, whatever the
interleaving and whatever Redis and the evaluator answer, the store receives only
non-empty documents stamped with the configured URI, and `processSyncData` emits
that URI, the one source the sync service tracks, once for each of them the
evaluator accepted, in order (`startRedisSyncService_emits`).
-/

namespace RedisSync

/-! ## Building the service -/

/-- `redissync.Config`, the logger apart. -/
structure Config where
  RedisURI : GoString
  RedisInterval : UInt32
  SyncPort : UInt16
  CertPath : GoString
  KeyPath : GoString
  SocketPath : GoString
  deriving DecidableEq, Repr

/-- `flagsync.SvcConfigurations` as `NewService` fills it, the logger and the store
apart. -/
structure SvcConfigurations where
  Port : UInt16
  Sources : List GoString
  CertPath : GoString
  KeyPath : GoString
  SocketPath : GoString
  deriving DecidableEq, Repr

/-- The constructors `NewService` calls that this repository does not define: the
error of `store.NewStore`, if any, and that of `flagsync.NewSyncService` for a
configuration. -/
structure ServiceHooks where
  newStore : Option GoError
  newSyncService : SvcConfigurations → Option GoError

/-- `redissync.Service`: the provider, and the configuration its sync service was
created with. -/
structure Service where
  redisSync : Sync
  syncService : SvcConfigurations
  deriving DecidableEq, Repr

/-- `NewService(cfg)`. `evaluator.NewJSON` cannot fail. -/
def newService (sh : ServiceHooks) (cfg : Config) : Except GoError Service :=
  match newRedisSync cfg.RedisURI with
  | .error err => .error (.wrap (lit "failed to create Redis sync provider") err)
  | .ok redisSync =>
    let redisSync := redisSync.setInterval cfg.RedisInterval
    match sh.newStore with
    | some err => .error (.wrap (lit "failed to create flag store") err)
    | none =>
      let svcCfg : SvcConfigurations :=
        ⟨cfg.SyncPort, [cfg.RedisURI], cfg.CertPath, cfg.KeyPath, cfg.SocketPath⟩
      match sh.newSyncService svcCfg with
      | some err => .error (.wrap (lit "failed to create sync service") err)
      | none => .ok ⟨redisSync, svcCfg⟩

/-- A provider `NewRedisSync` builds carries its URI, has seen no document and is
not ready. -/
theorem newRedisSync_fresh {uri : GoString} {rs : Sync} (h : newRedisSync uri = .ok rs) :
    rs.URI = uri ∧ rs.LastSHA = [] ∧ rs.ready = false := by
  unfold newRedisSync at h
  split at h
  · cases h
  · dsimp only at h
    split_ifs at h <;> cases h <;> exact ⟨rfl, rfl, rfl⟩

/-- What a service `NewService` builds is made of: `NewRedisSync`'s provider with
the configured interval, and a sync service whose one source is the URI. -/
theorem newService_eq_ok {sh : ServiceHooks} {cfg : Config} {svc : Service}
    (h : newService sh cfg = .ok svc) :
    ∃ rs, newRedisSync cfg.RedisURI = .ok rs ∧
      svc.redisSync = rs.setInterval cfg.RedisInterval ∧
      svc.syncService =
        ⟨cfg.SyncPort, [cfg.RedisURI], cfg.CertPath, cfg.KeyPath, cfg.SocketPath⟩ := by
  unfold newService at h
  split at h
  · cases h
  · next rs hrs =>
    dsimp only at h
    split at h
    · cases h
    · split at h
      · cases h
      · cases h
        exact ⟨rs, hrs, rfl, rfl⟩

/-! ## Starting it -/

/-- `rs.Init(ctx)`, Redis answering the `Ping` with the error `ping`, if any. -/
def Sync.init (ping : Option GoError) : Except GoError Unit :=
  match ping with
  | some err => .error (.wrap (lit "failed to connect to Redis") err)
  | none => .ok ()

/-- `s.Start(ctx)` up to its goroutines: `Init`, then a run of them from
`Run.start`. -/
def Service.start (s : Service) (ping : Option GoError) : Except GoError Run :=
  match Sync.init ping with
  | .error err => .error (.wrap (lit "failed to initialize Redis sync provider") err)
  | .ok () => .ok (Run.start s.redisSync)

/-! ## The command line -/

/-- The values `startRedisSyncService` reads from `viper`, the log format apart. -/
structure Flags where
  redisURI : GoString
  redisInterval : UInt32
  syncPort : UInt16
  certPath : GoString
  keyPath : GoString
  socketPath : GoString
  deriving DecidableEq, Repr

/-- `startRedisSyncService()` up to `service.Start`'s goroutines: the service it
creates, and the run `Start` begins. -/
def startRedisSyncService (sh : ServiceHooks) (flags : Flags) (ping : Option GoError) :
    Except GoError (Service × Run) :=
  match newService sh ⟨flags.redisURI, flags.redisInterval, flags.syncPort, flags.certPath,
      flags.keyPath, flags.socketPath⟩ with
  | .error err => .error (.wrap (lit "failed to create Redis sync service") err)
  | .ok service => (service.start ping).map (service, ·)

/-- A run `startRedisSyncService` begins is `Start`'s first state for the provider
`NewService` built from the flags, once Redis answered the `Ping`. -/
theorem startRedisSyncService_eq_ok {sh : ServiceHooks} {flags : Flags}
    {ping : Option GoError} {svc : Service} {s0 : Run}
    (h : startRedisSyncService sh flags ping = .ok (svc, s0)) :
    newService sh ⟨flags.redisURI, flags.redisInterval, flags.syncPort, flags.certPath,
      flags.keyPath, flags.socketPath⟩ = .ok svc ∧ ping = none ∧
      s0 = Run.start svc.redisSync := by
  unfold startRedisSyncService at h
  split at h
  · cases h
  · next service hsvc =>
    cases ping with
    | some err => cases h
    | none => cases h; exact ⟨hsvc, rfl, rfl⟩

/-- The store accepts a non-empty document exactly when the evaluator does. -/
theorem updateStoreFromSyncData_isOk (hk : Hooks) {ev : DataSync} (h : ev.FlagData ≠ []) :
    (updateStoreFromSyncData hk ev).isOk = (hk.setState ev).isOk := by
  unfold updateStoreFromSyncData
  rw [if_neg h]
  split <;> simp_all [Except.isOk, Except.toBool]

/-- In every run `startRedisSyncService` starts, along every interleaving, the
provider polls with the configured interval, 0 included; the store receives only
non-empty documents stamped with the configured URI; and `processSyncData` emits
that URI, the sync service's one source, once per document the evaluator accepted,
in order. -/
theorem startRedisSyncService_emits (sh : ServiceHooks) (flags : Flags)
    (ping : Option GoError) {svc : Service} {s0 : Run}
    (h : startRedisSyncService sh flags ping = .ok (svc, s0)) (hk : Hooks)
    (acts : List Action) :
    s0.rs.Interval = flags.redisInterval ∧ svc.syncService.Sources = [flags.redisURI] ∧
      (∀ ev ∈ s0.deliveries hk acts, ev.FlagData ≠ [] ∧ ev.Source = flags.redisURI) ∧
      s0.emits hk acts =
        ((s0.deliveries hk acts).filter fun ev => (hk.setState ev).isOk).map
          fun _ => flags.redisURI := by
  obtain ⟨hsvc, -, rfl⟩ := startRedisSyncService_eq_ok h
  obtain ⟨rs, hrs, hprov, hcfg⟩ := newService_eq_ok hsvc
  have huri : svc.redisSync.URI = flags.redisURI := by
    rw [hprov]; exact (newRedisSync_fresh hrs).1
  have hsent := Run.deliveries_wellSent hk svc.redisSync acts
  rw [huri] at hsent
  refine ⟨by rw [hprov]; rfl, by rw [hcfg], hsent, ?_⟩
  rw [Run.emits_eq, List.filter_congr fun ev hev =>
    updateStoreFromSyncData_isOk hk (hsent ev hev).1]
  exact List.map_congr_left fun ev hev => (hsent ev (List.mem_filter.mp hev).1).2

/-- A command line naming a URI with a password, with the flags' default interval and
port. -/
def secretFlags : Flags :=
  ⟨lit "redis://secret@localhost:6379/0?key=flags", 30, 8016, [], [], []⟩

/-- The service started from `secretFlags`, every constructor succeeding: the initial
document reaches the store and is emitted under the configured URI. -/
theorem startRedisSyncService_secret :
    ∃ svc s0, startRedisSyncService ⟨none, fun _ => none⟩ secretFlags none = .ok (svc, s0) ∧
      s0.rs.Interval = 30 ∧ svc.syncService.Sources = [secretFlags.redisURI] ∧
      (∀ ev ∈ s0.deliveries (Hooks.plain false)
          [.syncFetch (.ofJSON (lit "v1")), .syncSend, .receive],
        ev.FlagData ≠ [] ∧ ev.Source = secretFlags.redisURI) ∧
      s0.emits (Hooks.plain false) [.syncFetch (.ofJSON (lit "v1")), .syncSend, .receive] =
        ((s0.deliveries (Hooks.plain false)
            [.syncFetch (.ofJSON (lit "v1")), .syncSend, .receive]).filter
          fun ev => ((Hooks.plain false).setState ev).isOk).map fun _ => secretFlags.redisURI := by
  obtain ⟨svc, s0, h⟩ : ∃ svc s0,
      startRedisSyncService ⟨none, fun _ => none⟩ secretFlags none = .ok (svc, s0) :=
    ⟨_, _, by
      simp only [startRedisSyncService, secretFlags, newService,
        newRedisSync_documented secret_documented]
      rfl⟩
  exact ⟨svc, s0, h, startRedisSyncService_emits _ _ _ h _ _⟩

end RedisSync
