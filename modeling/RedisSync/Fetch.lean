import RedisSync.Base64

/-!
# One fetch: `fetchData`

`fetchData` (source lines 200-272) reads the document under `rs.Key` twice at
most: `JSON.GET key .` first, and plain `GET key` only when that answered with an
error, `redis.Nil` included. A non-empty raw document is normalised by
`ConvertToJSON`, and a non-empty normalised document is fingerprinted into
`rs.LastSHA` before it is returned.

A command's answer is the `JSONCmd` or `StringCmd` go-redis hands back; `Replies`
holds the two answers the fetch would get, so that a run can let the store change
arbitrarily between fetches, and between the two commands of one fetch.
`JSONCmd.Result` returns the value as a Go `string`, so the `nil` and
"unexpected data type" branches of the JSON path are kept as the source writes
them but cannot be taken.

The spec lemma `fetchData_eq` splits a fetch into what it returns
(`fetchResult`, independent of the provider's state) and the one write it makes
(`Sync.record`); the interleaved models of later files take the read and the
write as separate steps through it. `fetchData_contract` is the whole contract
of the function.
-/

namespace RedisSync

/-! ## Replies -/

/-- The dynamic value behind the `interface{}` that `fetchData` inspects. -/
inductive GoValue where
  | nil
  | string (s : GoString)
  | other (typeName : GoString)

/-- A `*redis.JSONCmd` once it has run. -/
structure JSONCmd where
  val : GoString
  err : Option GoError

/-- `cmd.Result()`: go-redis gives the value as a `string`, with `cmd.Err()`. -/
def JSONCmd.result (cmd : JSONCmd) : GoValue × Option GoError := (.string cmd.val, cmd.err)

/-- A `*redis.StringCmd` once it has run. -/
structure StringCmd where
  val : GoString
  err : Option GoError

/-- What Redis answers to the two commands of one fetch. -/
structure Replies where
  json : JSONCmd
  get : StringCmd

/-- The answers when the key holds the RedisJSON document `doc`. -/
def Replies.ofJSON (doc : GoString) : Replies := ⟨⟨doc, none⟩, ⟨[], some .nil⟩⟩

/-- The answers once the commands' context is cancelled: go-redis returns
`context.Canceled` without reaching the server. -/
def Replies.canceled : Replies :=
  ⟨⟨[], some (.new (lit "context canceled"))⟩,
    ⟨[], some (.new (lit "context canceled"))⟩⟩

/-! ## The function -/

/-- The tail both paths share (source lines 226-237 and 260-271, which differ only
in the context of the conversion error): normalise, fingerprint, return. -/
def convertAndRecord (hk : Hooks) (context raw : GoString) (rs : Sync) :
    Except GoError GoString × Sync :=
  match hk.convertToJSON raw with
  | .error err => (.error (.wrap context err), rs)
  | .ok convertedJSON =>
    (.ok convertedJSON,
      if convertedJSON ≠ [] then { rs with LastSHA := generateSHA hk convertedJSON } else rs)

/-- `rs.fetchData(ctx)`: the payload (or an error), and the provider afterwards. -/
def fetchData (hk : Hooks) (r : Replies) (rs : Sync) : Except GoError GoString × Sync :=
  match r.json.err with
  | none =>
    match r.json.result with
    | (_, some err) =>
      (.error (.wrap (lit "failed to get result from Redis JSON command") err), rs)
    | (.nil, none) => (.ok [], rs)
    | (.string jsonString, none) =>
      if jsonString = [] then (.ok [], rs)
      else convertAndRecord hk (lit "error converting Redis JSON to standard format") jsonString rs
    | (.other typeName, none) =>
      (.error (.new (lit "unexpected data type from Redis JSON.GET: " ++ typeName)), rs)
  | some _ =>
    match r.get.err with
    | some .nil => (.ok [], rs)
    | some err => (.error (.wrap (lit "failed to get data from Redis") err), rs)
    | none =>
      if r.get.val = [] then (.ok [], rs)
      else convertAndRecord hk
        (lit "error converting Redis data to standard JSON format") r.get.val rs

/-! ## Read and write, apart -/

/-- What `fetchData` returns on the replies `r`. -/
def fetchResult (hk : Hooks) (r : Replies) : Except GoError GoString :=
  (fetchData hk r default).1

/-- The write a fetch makes: the fingerprint of a non-empty payload. -/
def Sync.record (hk : Hooks) (rs : Sync) : Except GoError GoString → Sync
  | .ok p => if p = [] then rs else { rs with LastSHA := generateSHA hk p }
  | .error _ => rs

@[simp] theorem Sync.record_error (hk : Hooks) (rs : Sync) (e : GoError) :
    rs.record hk (.error e) = rs := rfl

@[simp] theorem Sync.record_nil (hk : Hooks) (rs : Sync) : rs.record hk (.ok []) = rs := rfl

@[simp] theorem Sync.record_URI (hk : Hooks) (rs : Sync) (o : Except GoError GoString) :
    (rs.record hk o).URI = rs.URI := by
  rcases o with _ | p <;> simp only [Sync.record]; split_ifs <;> rfl

@[simp] theorem Sync.record_Interval (hk : Hooks) (rs : Sync) (o : Except GoError GoString) :
    (rs.record hk o).Interval = rs.Interval := by
  rcases o with _ | p <;> simp only [Sync.record]; split_ifs <;> rfl

theorem convertAndRecord_eq (hk : Hooks) (context raw : GoString) (rs : Sync) :
    convertAndRecord hk context raw rs =
      ((convertAndRecord hk context raw default).1,
        rs.record hk (convertAndRecord hk context raw default).1) := by
  unfold convertAndRecord
  split <;> simp [Sync.record]

/-- A fetch is its result, which does not depend on the provider, followed by the
fingerprint write. -/
theorem fetchData_eq (hk : Hooks) (r : Replies) (rs : Sync) :
    fetchData hk r rs = (fetchResult hk r, rs.record hk (fetchResult hk r)) := by
  rcases r with ⟨⟨jv, _ | _⟩, ⟨gv, _ | _ | _ | _⟩⟩ <;>
    simp only [fetchResult, fetchData, JSONCmd.result] <;>
    (try split_ifs) <;> first | rfl | exact convertAndRecord_eq ..

/-! ## The contract -/

/-- The raw document on the path `fetchData` takes: JSON.GET's value when JSON.GET
answered without error, otherwise GET's value when GET answered without error. -/
def Replies.raw? (r : Replies) : Option GoString :=
  match r.json.err with
  | none => some r.json.val
  | some _ => if r.get.err = none then some r.get.val else none

/-- Which path, what it returns, and how it changes the provider, for every pair of
replies and every prior `LastSHA`. The payload is `none` exactly for an error:
the path taken failed with an error other than `redis.Nil`, or its conversion
failed. A successful non-empty payload is fingerprinted into `LastSHA`; every
other return leaves the provider as it was. -/
theorem fetchData_contract (hk : Hooks) (r : Replies) (rs : Sync) :
    (fetchData hk r rs).1.toOption =
      (match r.raw? with
       | some s => if s = [] then some [] else (hk.convertToJSON s).toOption
       | none => if r.get.err = some .nil then some [] else none) ∧
    (fetchData hk r rs).2 =
      (match (fetchData hk r rs).1 with
       | .ok p => if p = [] then rs else { rs with LastSHA := generateSHA hk p }
       | .error _ => rs) := by
  refine ⟨?_, by rw [fetchData_eq]; rfl⟩
  unfold fetchData Replies.raw? convertAndRecord
  rcases r with ⟨⟨jv, je⟩, ⟨gv, ge⟩⟩
  rcases je with _ | _
  · dsimp only [JSONCmd.result]
    by_cases hj : jv = [] <;> simp only [hj, if_true, if_false]
    · rfl
    · split <;> simp_all [Except.toOption]
  · rcases ge with _ | ⟨_ | _ | _⟩ <;> dsimp only
    · by_cases hg : gv = [] <;> simp only [hg, if_true, if_false]
      · rfl
      · split <;> simp_all [Except.toOption]
    all_goals simp [Except.toOption]

end RedisSync
