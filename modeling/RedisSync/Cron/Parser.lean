import RedisSync.Strings

/-!
# The parser of `github.com/robfig/cron`

`Sync` polls on a schedule it hands to `rs.Cron.AddFunc`, where `rs.Cron` is a
`cron.New()` of the imported `github.com/robfig/cron`, whose import path without
a major version is its version 1. There `AddFunc` reads the spec with `Parse`,
the default parser of `parser.go`, built as
`NewParser(Second | Minute | Hour | Dom | Month | DowOptional | Descriptor)`:
the fields are second, minute, hour, day of month, month and an optional day of
week, so a spec of five fields starts with the *second*, and a spec that starts
with `@` is a descriptor.

A field is a comma-separated list of ranges, and each range becomes a 64-bit
mask (`getRange`, `getBits`); a range written `*` or `?` also sets `starBit`,
which `dayMatches` reads. The definitions follow `parser.go` function by
function, error texts included.

`getBits_getLsbD` says which bits a range sets: from `min` to `max`, every
`step`-th, for both of the function's branches. `getRange_star` and
`getRange_everyStep` run a range of the forms `*` and `*/n` for every bound and
every `n`, the step check included.
-/

namespace RedisSync
namespace Cron

/-! ## Masks -/

/-- `starBit = 1 << 63`: set in a field written with `*` or `?`. -/
def starBit : BitVec 64 := 1#64 <<< 63

/-- The loop of `getBits` for a step other than one,
`for i := min; i <= max; i += step { bits |= 1 << i }`, from `i` with `fuel`
passes left. -/
def getBitsLoop (max step : Nat) : (fuel i : Nat) → BitVec 64 → BitVec 64
  | 0, _, bits => bits
  | fuel + 1, i, bits =>
    if i ≤ max then getBitsLoop max step fuel (i + step) (bits ||| 1#64 <<< i) else bits

/-- `getBits(min, max, step)`: the bits from `min` to `max`, every `step`-th. The
loop makes at most `max + 1` passes for a positive step, the only step
`getRange` passes it. -/
def getBits (min max step : Nat) : BitVec 64 :=
  if step = 1 then ~~~(BitVec.allOnes 64 <<< (max + 1)) &&& (BitVec.allOnes 64 <<< min)
  else getBitsLoop max step (max + 1) min 0

theorem getLsbD_one_shiftLeft (i j : Nat) :
    (1#64 <<< i).getLsbD j = (decide (j = i) && decide (j < 64)) := by
  simp only [BitVec.getLsbD_shiftLeft, BitVec.getLsbD_one]
  by_cases h : j = i <;> by_cases h' : j < 64 <;> simp [h, h']
  omega

/-- `j - i` is a multiple of `step` exactly when `j` is `i`, or `j` is past
`i + step` by a multiple of `step`. -/
theorem dvd_sub_iff {step i j : Nat} (hij : i ≤ j) :
    step ∣ j - i ↔ j = i ∨ (i + step ≤ j ∧ step ∣ j - (i + step)) := by
  constructor
  · intro h
    by_cases hj : j = i
    · exact .inl hj
    · have hle : step ≤ j - i := Nat.le_of_dvd (by omega) h
      refine .inr ⟨by omega, ?_⟩
      rw [show j - (i + step) = j - i - step by omega]
      exact Nat.dvd_sub' h (Nat.dvd_refl step)
  · rintro (rfl | ⟨hle, h⟩)
    · simp
    · rw [show j - i = j - (i + step) + step by omega]
      exact Nat.dvd_add h (Nat.dvd_refl step)

/-- The values a loop pass adds: `i` itself, or one of the later steps. -/
theorem mem_steps_succ {step i j max : Nat} (hi : i ≤ max) (hmax : max < 64) :
    (j = i ∧ j < 64) ∨ (i + step ≤ j ∧ j ≤ max ∧ step ∣ j - (i + step)) ↔
      i ≤ j ∧ j ≤ max ∧ step ∣ j - i := by
  by_cases hij : i ≤ j
  · rw [dvd_sub_iff hij]
    constructor
    · rintro (⟨rfl, -⟩ | ⟨h1, h2, h3⟩)
      · exact ⟨le_rfl, hi, .inl rfl⟩
      · exact ⟨hij, h2, .inr ⟨h1, h3⟩⟩
    · rintro ⟨-, h2, rfl | ⟨h1, h3⟩⟩
      · exact .inl ⟨rfl, by omega⟩
      · exact .inr ⟨h1, h2, h3⟩
  · constructor
    · rintro (⟨rfl, -⟩ | ⟨h1, -⟩) <;> omega
    · rintro ⟨h, -⟩; omega

/-- The loop sets, beyond what it starts from, the bits from `i` to `max`, every
`step`-th, when its fuel covers them. -/
theorem getBitsLoop_getLsbD {max step : Nat} (hstep : 0 < step) (hmax : max < 64) :
    ∀ {fuel i : Nat} (bits : BitVec 64), max < i + fuel → ∀ j,
      (getBitsLoop max step fuel i bits).getLsbD j = true ↔
        bits.getLsbD j = true ∨ (i ≤ j ∧ j ≤ max ∧ step ∣ j - i)
  | 0, i, bits, hfuel, j => ⟨.inl, fun h => h.resolve_right (by omega)⟩
  | fuel + 1, i, bits, hfuel, j => by
    unfold getBitsLoop
    split_ifs with hi
    · rw [getBitsLoop_getLsbD hstep hmax _ (by omega), BitVec.getLsbD_or, getLsbD_one_shiftLeft]
      simp only [Bool.or_eq_true, Bool.and_eq_true, decide_eq_true_eq, or_assoc,
        mem_steps_succ hi hmax]
    · exact ⟨.inl, fun h => h.resolve_right (by omega)⟩

/-- The bits `getBits` sets: from `min` to `max`, every `step`-th. -/
theorem getBits_getLsbD {min max step : Nat} (hstep : 0 < step) (hmax : max < 64) (j : Nat) :
    (getBits min max step).getLsbD j = true ↔ min ≤ j ∧ j ≤ max ∧ step ∣ j - min := by
  unfold getBits
  split_ifs with h1
  · subst h1
    simp only [BitVec.getLsbD_and, BitVec.getLsbD_not, BitVec.getLsbD_shiftLeft,
      BitVec.getLsbD_allOnes, Bool.and_eq_true, Bool.not_eq_true', decide_eq_true_eq,
      Bool.and_eq_false_imp, decide_eq_false_iff_not, Nat.one_dvd, and_true]
    omega
  · rw [getBitsLoop_getLsbD hstep hmax 0 (by omega)]
    simp

/-! ## Fields -/

/-- `bounds`: the values a field admits, and the names it accepts for them (a
`nil` map is the empty list). -/
structure Bounds where
  min : Nat
  max : Nat
  names : List (GoString × Nat)

/-- The bounds of the six fields. -/
def seconds : Bounds := ⟨0, 59, []⟩
def minutes : Bounds := ⟨0, 59, []⟩
def hours : Bounds := ⟨0, 23, []⟩
def dom : Bounds := ⟨1, 31, []⟩
def months : Bounds :=
  ⟨1, 12, [(lit "jan", 1), (lit "feb", 2), (lit "mar", 3), (lit "apr", 4), (lit "may", 5),
    (lit "jun", 6), (lit "jul", 7), (lit "aug", 8), (lit "sep", 9), (lit "oct", 10),
    (lit "nov", 11), (lit "dec", 12)]⟩
def dow : Bounds :=
  ⟨0, 6, [(lit "sun", 0), (lit "mon", 1), (lit "tue", 2), (lit "wed", 3), (lit "thu", 4),
    (lit "fri", 5), (lit "sat", 6)]⟩

/-- `all(r)`: every value of the field, with `starBit`. -/
def all (r : Bounds) : BitVec 64 := getBits r.min r.max 1 ||| starBit

/-- `mustParseInt(expr)`: `expr` as a non-negative `int`. -/
def mustParseInt (expr : GoString) : Except GoError Nat :=
  match atoi expr with
  | .error err => .error (.new (lit "Failed to parse int from " ++ expr ++ lit ": " ++ err.error))
  | .ok num =>
    if num < 0 then
      .error (.new (lit "Negative number (" ++ decimalInt num ++ lit ") not allowed: " ++ expr))
    else .ok num.toNat

/-- `parseIntOrName(expr, names)`: a name of the field in any case, or else a
number. -/
def parseIntOrName (expr : GoString) (names : List (GoString × Nat)) : Except GoError Nat :=
  match names.lookup (toLower expr) with
  | some namedInt => .ok namedInt
  | none => mustParseInt expr

/-- The start, the end and the extra bit of a range's `low[-high]` part, in the
order `getRange` reads them: `*` or `?`, else the low end, then the high end if
there is one. -/
def rangeEnds (expr : GoString) (r : Bounds) (lowAndHigh : List GoString) :
    Except GoError (Nat × Nat × BitVec 64) :=
  let low := lowAndHigh.headD []
  if low = lit "*" ∨ low = lit "?" then .ok (r.min, r.max, starBit)
  else match parseIntOrName low r.names with
    | .error err => .error err
    | .ok start =>
      match lowAndHigh with
      | [_] => .ok (start, start, 0)
      | [_, high] => (parseIntOrName high r.names).map fun stop => (start, stop, 0)
      | _ => .error (.new (lit "Too many hyphens: " ++ expr))

/-- The error of a range whose step is zero. -/
def stepError (expr : GoString) : GoError :=
  .new (lit "Step of range should be a positive number: " ++ expr)

/-- The checks that end `getRange`, in its order, and its result. -/
def rangeBits (expr : GoString) (r : Bounds) (start stop step : Nat) (extra : BitVec 64) :
    Except GoError (BitVec 64) :=
  if start < r.min then
    .error (.new (lit "Beginning of range (" ++ decimal start ++ lit ") below minimum (" ++
      decimal r.min ++ lit "): " ++ expr))
  else if stop > r.max then
    .error (.new (lit "End of range (" ++ decimal stop ++ lit ") above maximum (" ++
      decimal r.max ++ lit "): " ++ expr))
  else if start > stop then
    .error (.new (lit "Beginning of range (" ++ decimal start ++ lit ") beyond end of range (" ++
      decimal stop ++ lit "): " ++ expr))
  else if step = 0 then .error (stepError expr)
  else .ok (getBits start stop step ||| extra)

/-- `getRange(expr, r)`: the bits of one range,
`number | number "-" number [ "/" number ]`, or `*` or `?` for the whole field;
`N/step` runs from `N` to the field's maximum. -/
def getRange (expr : GoString) (r : Bounds) : Except GoError (BitVec 64) :=
  let rangeAndStep := split expr '/'.toUInt8
  let lowAndHigh := split (rangeAndStep.headD []) '-'.toUInt8
  match rangeEnds expr r lowAndHigh with
  | .error err => .error err
  | .ok (start, stop, extra) =>
    match rangeAndStep with
    | [_] => rangeBits expr r start stop 1 extra
    | [_, stepText] =>
      match mustParseInt stepText with
      | .error err => .error err
      | .ok step =>
        rangeBits expr r start (if lowAndHigh.length = 1 then r.max else stop) step extra
    | _ => .error (.new (lit "Too many slashes: " ++ expr))

/-- `getField(field, r)`: the union of the ranges between the commas. -/
def getField (field : GoString) (r : Bounds) : Except GoError (BitVec 64) :=
  (fieldsFunc field (· = ','.toUInt8)).foldlM
    (fun bits expr => (bits ||| ·) <$> getRange expr r) 0

/-- A range within the field's bounds, with a positive step, passes the checks. -/
theorem rangeBits_of_le {expr : GoString} {r : Bounds} {start stop step : Nat} (extra : BitVec 64)
    (h1 : r.min ≤ start) (h2 : start ≤ stop) (h3 : stop ≤ r.max) (h4 : 0 < step) :
    rangeBits expr r start stop step extra = .ok (getBits start stop step ||| extra) := by
  simp only [rangeBits]
  rw [if_neg (by omega), if_neg (by omega), if_neg (by omega), if_neg (by omega)]

/-- `*` is the whole field, with `starBit`. -/
theorem getRange_star (r : Bounds) (h : r.min ≤ r.max) : getRange (lit "*") r = .ok (all r) := by
  have hs : split (lit "*") '/'.toUInt8 = [lit "*"] ∧
      split (lit "*") '-'.toUInt8 = [lit "*"] := by
    decide
  simp only [getRange, hs, List.headD_cons, rangeEnds, true_or, if_true]
  exact rangeBits_of_le _ le_rfl h le_rfl Nat.one_pos

/-- `*/n` is every `n`-th value of the field from its minimum, with `starBit`;
a step of zero is refused. -/
theorem getRange_everyStep (r : Bounds) (h : r.min ≤ r.max) {n : Nat}
    (hn : n < 9223372036854775808) :
    getRange (lit "*/" ++ decimal n) r =
      if n = 0 then .error (stepError (lit "*/" ++ decimal n))
      else .ok (getBits r.min r.max n ||| starBit) := by
  have hslash : '/'.toUInt8 ∉ decimal n := fun hm => by
    have := decimal_digits n _ hm; revert this; decide
  have hsplit : split (lit "*/" ++ decimal n) '/'.toUInt8 = [lit "*", decimal n] := by
    rw [split, show lit "*/" ++ decimal n = lit "*" ++ '/'.toUInt8 :: decimal n from rfl,
      splitBy_append_cons _ (by decide) (by decide), ← split, split_of_not_mem hslash]
  have hstar : split (lit "*") '-'.toUInt8 = [lit "*"] := by decide
  have hint : mustParseInt (decimal n) = .ok n := by
    simp [mustParseInt, atoi_decimal hn, show ¬(n : Int) < 0 by omega]
  simp only [getRange, hsplit, hstar, List.headD_cons, rangeEnds, true_or, if_true, hint,
    List.length_singleton]
  split_ifs with hn0
  · simp [rangeBits, h, hn0, show ¬r.max < r.min by omega]
  · exact rangeBits_of_le _ le_rfl h le_rfl (by omega)

/-- A field without a comma is its one range. -/
theorem getField_of_not_mem {field : GoString} (r : Bounds) (hne : field ≠ [])
    (h : ','.toUInt8 ∉ field) : getField field r = (0 ||| ·) <$> getRange field r := by
  have : fieldsFunc field (· = ','.toUInt8) = [field] := by
    rw [fieldsFunc, splitBy_of_forall fun c hc => decide_eq_false fun e => h (by rwa [e] at hc)]
    simp [hne]
  simp [getField, this]

theorem getField_star (r : Bounds) (h : r.min ≤ r.max) : getField (lit "*") r = .ok (all r) := by
  rw [getField_of_not_mem r (by decide) (by decide), getRange_star r h]
  exact congrArg Except.ok BitVec.zero_or

/-- The field `*/n`, the only one `Sync`'s spec varies. -/
theorem getField_everyStep (r : Bounds) (h : r.min ≤ r.max) {n : Nat}
    (hn : n < 9223372036854775808) :
    getField (lit "*/" ++ decimal n) r =
      if n = 0 then .error (stepError (lit "*/" ++ decimal n))
      else .ok (getBits r.min r.max n ||| starBit) := by
  have hcomma : ','.toUInt8 ∉ lit "*/" ++ decimal n := by
    show ','.toUInt8 ∉ '*'.toUInt8 :: '/'.toUInt8 :: decimal n
    simp only [List.mem_cons, not_or]
    refine ⟨by decide, by decide, fun hm => ?_⟩
    have := decimal_digits n _ hm
    revert this; decide
  rw [getField_of_not_mem r (by simp [lit]) hcomma, getRange_everyStep r h hn]
  split_ifs
  · rfl
  · exact congrArg Except.ok BitVec.zero_or

/-! ## Specs -/

/-- `SpecSchedule`: one mask per field. -/
structure SpecSchedule where
  Second : BitVec 64
  Minute : BitVec 64
  Hour : BitVec 64
  Dom : BitVec 64
  Month : BitVec 64
  Dow : BitVec 64
  deriving DecidableEq, Repr

/-- A `Schedule` the parser returns. -/
inductive Schedule where
  | spec (s : SpecSchedule)
  /-- `Every(duration)` of an `@every <duration>` descriptor, kept as the
  duration's text. -/
  | every (duration : GoString)
  deriving DecidableEq, Repr

/-- The schedule of `@daily`-like descriptors: second, minute and hour at their
first value, the rest as given. -/
def descriptorSchedule (hour dayOfMonth month dayOfWeek : BitVec 64) : Schedule :=
  .spec ⟨1#64 <<< seconds.min, 1#64 <<< minutes.min, hour, dayOfMonth, month, dayOfWeek⟩

/-- `parseDescriptor(descriptor)`. An `@every` duration is kept as its text:
`time.ParseDuration`, which may refuse it, is not part of the model. -/
def parseDescriptor (descriptor : GoString) : Except GoError Schedule :=
  if descriptor = lit "@yearly" ∨ descriptor = lit "@annually" then
    .ok (descriptorSchedule (1#64 <<< hours.min) (1#64 <<< dom.min) (1#64 <<< months.min) (all dow))
  else if descriptor = lit "@monthly" then
    .ok (descriptorSchedule (1#64 <<< hours.min) (1#64 <<< dom.min) (all months) (all dow))
  else if descriptor = lit "@weekly" then
    .ok (descriptorSchedule (1#64 <<< hours.min) (all dom) (all months) (1#64 <<< dow.min))
  else if descriptor = lit "@daily" ∨ descriptor = lit "@midnight" then
    .ok (descriptorSchedule (1#64 <<< hours.min) (all dom) (all months) (all dow))
  else if descriptor = lit "@hourly" then
    .ok (descriptorSchedule (all hours) (all dom) (all months) (all dow))
  else if hasPrefix descriptor (lit "@every ") then
    .ok (.every (descriptor.drop 7))
  else .error (.new (lit "Unrecognized descriptor: " ++ descriptor))

/-- The text of each place a spec leaves out: second, minute and hour `0`, the
others `*`. -/
def defaults : List GoString := [lit "0", lit "0", lit "0", lit "*", lit "*", lit "*"]

/-- `expandFields(fields, options)` for the default parser, which has every place:
the fields given, then the defaults of the places after them. -/
def expandFields (fields : List GoString) : List GoString := fields ++ defaults.drop fields.length

/-- `cron.Parse(spec)`. -/
def parse (spec : GoString) : Except GoError Schedule :=
  if spec = [] then .error (.new (lit "Empty spec string"))
  else if spec.head? = some '@'.toUInt8 then parseDescriptor spec
  else
    let count := (fields spec).length
    if count < 5 ∨ count > 6 then
      .error (.new (lit "Expected 5 to 6 fields, found " ++ decimal count ++ lit ": " ++ spec))
    else do
      let fields := expandFields (fields spec)
      let second ← getField (fields.getD 0 []) seconds
      let minute ← getField (fields.getD 1 []) minutes
      let hour ← getField (fields.getD 2 []) hours
      let dayofmonth ← getField (fields.getD 3 []) dom
      let month ← getField (fields.getD 4 []) months
      let dayofweek ← getField (fields.getD 5 []) dow
      pure (.spec ⟨second, minute, hour, dayofmonth, month, dayofweek⟩)

end Cron
end RedisSync
