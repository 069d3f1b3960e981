import Mathlib.Data.List.Basic

/-!
# Go values of the Redis sync provider

The data the provider (`core/pkg/sync/redis/redis_sync.go`) and the standalone
service (`flagd/pkg/service/redis-sync/service.go`) pass around, in the shape Go
gives it: a `string` is a sequence of bytes, an `error` is a value built by
`errors.New` and wrapped by `fmt.Errorf("...: %w", err)`, and `redis.Nil` is one
distinguished error value that the code compares by identity.

`Sync` keeps the fields of the provider that the modelled functions read or
write. The collaborators the provider calls but this repository does not define
(the SHA3 digest, `utils.ConvertToJSON`, the evaluator's `SetState`) are the
fields of `Hooks`, so that every result below holds for all of them.
-/

namespace RedisSync

/-! ## Strings and errors -/

/-- A Go `string`: a sequence of bytes. -/
abbrev GoString := List UInt8

/-- An ASCII string literal of the source, as the bytes Go stores for it. -/
def lit (s : String) : GoString := s.toList.map Char.toUInt8

/-- A Go `error` value. -/
inductive GoError where
  /-- `redis.Nil`, the reply to a read of a missing key. -/
  | nil
  /-- `errors.New(text)`, or an error a collaborator returns. -/
  | new (text : GoString)
  /-- `fmt.Errorf("<context>: %w", err)`. -/
  | wrap (context : GoString) (err : GoError)
  /-- An error whose message quotes `arg` with `%q` between two fixed texts:
  `fmt.Errorf("invalid port %q after host", colonPort)`, and `net/url`'s
  `EscapeError` and `InvalidHostError`. -/
  | quoted (before arg after : GoString)
  /-- `*url.Error`: the operation, the URL it was given, and the cause. -/
  | url (op url : GoString) (err : GoError)
  deriving DecidableEq, Repr

/-- Results compare constructor by constructor, so that runs of the model can be
evaluated by `decide`. -/
instance instDecidableEqExcept {ε α : Type} [DecidableEq ε] [DecidableEq α] :
    DecidableEq (Except ε α)
  | .error a, .error b => decidable_of_iff (a = b) (by simp)
  | .ok a, .ok b => decidable_of_iff (a = b) (by simp)
  | .error _, .ok _ => isFalse (by simp)
  | .ok _, .error _ => isFalse (by simp)

/-- The hexadecimal digits `strconv` writes, `lowerhex[n]`. -/
def lowerhex (n : Nat) : UInt8 := (lit "0123456789abcdef").getD n 0

/-- One byte of `strconv.Quote`'s output: a quote or a backslash is escaped, a
printable ASCII byte kept, a control byte written as its Go escape (`\n`, or
`\x` and two digits). Bytes from `0x80` up are kept: this is `Quote`'s output
for printable UTF-8, which it keeps; it escapes invalid and non-printable
sequences, for which it decodes runes with Unicode's tables, and that is not
modelled. -/
def quoteByte (c : UInt8) : GoString :=
  if c = 34 ∨ c = 92 then [92, c]
  else if (32 ≤ c ∧ c < 127) ∨ 128 ≤ c then [c]
  else if c = 7 then lit "\\a"
  else if c = 8 then lit "\\b"
  else if c = 12 then lit "\\f"
  else if c = 10 then lit "\\n"
  else if c = 13 then lit "\\r"
  else if c = 9 then lit "\\t"
  else if c = 11 then lit "\\v"
  else lit "\\x" ++ [lowerhex (c.toNat / 16), lowerhex (c.toNat % 16)]

/-- `strconv.Quote(s)`, as `%q` formats a string. -/
def quote (s : GoString) : GoString := 34 :: s.flatMap quoteByte ++ [34]

/-- `err.Error()`. -/
def GoError.error : GoError → GoString
  | .nil => lit "redis: nil"
  | .new text => text
  | .wrap context err => context ++ lit ": " ++ err.error
  | .quoted before arg after => before ++ quote arg ++ after
  | .url op u err => op ++ lit " " ++ quote u ++ lit ": " ++ err.error

/-! ## Events and collaborators -/

/-- `sync.DataSync` as the provider builds it: the flag document and its source. -/
structure DataSync where
  FlagData : GoString
  Source : GoString
  deriving DecidableEq, Repr

/-- A SHA3-256 digest, `hasher.Sum(nil)`: thirty-two bytes. -/
structure Digest where
  bytes : List UInt8
  length_bytes : bytes.length = 32

/-- The functions the provider and the service call but this repository does not
define. -/
structure Hooks where
  /-- `sha3.New256()` fed with the bytes, then `Sum(nil)`. -/
  sum256 : GoString → Digest
  /-- `utils.ConvertToJSON(data, ".json", "application/json")`. -/
  convertToJSON : GoString → Except GoError GoString
  /-- `evaluator.SetState`: how many flags changed, and whether a resync is required. -/
  setState : DataSync → Except GoError (Nat × Bool)

/-- Collaborators for running the model on small inputs: the digest keeps the
first thirty-two bytes (zero-padded), conversion returns its input, and the
evaluator accepts every document, asking for a resync when `resync` is set. -/
def Hooks.plain (resync : Bool) : Hooks where
  sum256 data := ⟨(data ++ List.replicate 32 0).take 32, by simp⟩
  convertToJSON data := .ok data
  setState _ := .ok (0, resync)

/-! ## The provider -/

/-- `tls.Config` as the provider fills it. -/
structure TLSConfig where
  ServerName : GoString
  deriving DecidableEq, Repr, Inhabited

/-- `redis.Options`: the fields the provider sets, and the username it could set. -/
structure Options where
  Addr : GoString
  Username : GoString
  Password : GoString
  DB : Int
  TLSConfig : Option TLSConfig
  deriving DecidableEq, Repr, Inhabited

/-- The provider, `redis.Sync`. `Client` is the configuration the Redis client was
built from. -/
structure Sync where
  URI : GoString
  Client : Options
  Key : GoString
  Database : Int
  Password : GoString
  TLS : Bool
  Interval : UInt32
  LastSHA : GoString
  ready : Bool
  deriving DecidableEq, Repr, Inhabited

/-- `rs.SetInterval(interval)`. -/
def Sync.setInterval (rs : Sync) (interval : UInt32) : Sync :=
  { rs with Interval := interval }

end RedisSync
