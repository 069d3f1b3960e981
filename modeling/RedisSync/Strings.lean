import RedisSync.Basic

/-!
# The `strings` and `strconv` functions the provider and `net/url` call

Go's `strings` package works on the bytes of a string, and so do these
definitions. A position is a byte offset, with `none` for Go's `-1`. Each
separator the modelled code looks for is one ASCII byte, apart from the
`"%25"` of an IPv6 zone, which is `indexOf`.

Beside each function stand the lemmas later files use to run it on a string
whose shape is known: one where the separator occurs at a known place, or not
at all. `atoi_digits` is the one fact about `strconv.Atoi` the provider
depends on: a run of decimal digits reads back as its value while that value
fits in an `int`.
-/

namespace RedisSync

/-! ## Searching -/

/-- `strings.IndexByte(s, c)`: the first position of `c` in `s`. -/
def index (s : GoString) (c : UInt8) : Option Nat :=
  match s with
  | [] => none
  | d :: s => if d = c then some 0 else (index s c).map (· + 1)

/-- `strings.LastIndexByte(s, c)`: the last position of `c` in `s`. -/
def lastIndex (s : GoString) (c : UInt8) : Option Nat :=
  match s with
  | [] => none
  | d :: s =>
    match lastIndex s c with
    | some i => some (i + 1)
    | none => if d = c then some 0 else none

/-- `strings.Index(s, pat)`: the first position where `pat` starts. -/
def indexOf (s pat : GoString) : Option Nat :=
  if pat.isPrefixOf s then some 0
  else match s with
    | [] => none
    | _ :: s => (indexOf s pat).map (· + 1)

theorem index_eq_none {s : GoString} {c : UInt8} (h : c ∉ s) : index s c = none := by
  induction s with
  | nil => rfl
  | cons d s ih =>
    simp only [List.mem_cons, not_or] at h
    simp [index, Ne.symm h.1, ih h.2]

theorem index_append_cons {b : GoString} {c : UInt8} (a : GoString) (h : c ∉ b) :
    index (b ++ c :: a) c = some b.length := by
  induction b with
  | nil => simp [index]
  | cons d b ih =>
    simp only [List.mem_cons, not_or] at h
    simp [index, Ne.symm h.1, ih h.2]

theorem lastIndex_eq_none {s : GoString} {c : UInt8} (h : c ∉ s) : lastIndex s c = none := by
  induction s with
  | nil => rfl
  | cons d s ih =>
    simp only [List.mem_cons, not_or] at h
    simp [lastIndex, ih h.2, Ne.symm h.1]

theorem lastIndex_append_cons (b : GoString) {c : UInt8} {a : GoString} (h : c ∉ a) :
    lastIndex (b ++ c :: a) c = some b.length := by
  induction b with
  | nil => simp [lastIndex, lastIndex_eq_none h]
  | cons d b ih => simp [lastIndex, ih]

theorem indexOf_eq_none {s : GoString} {c : UInt8} {pat : GoString} (h : c ∉ s) :
    indexOf s (c :: pat) = none := by
  induction s with
  | nil => rfl
  | cons d s ih =>
    simp only [List.mem_cons, not_or] at h
    simp [indexOf, List.isPrefixOf, h.1, ih h.2]

/-! ## Cutting and trimming -/

/-- `strings.Cut(s, sep)`: the text before the first `sep`, the text after it, and
whether `sep` was found. -/
def cut (s : GoString) (sep : UInt8) : GoString × GoString × Bool :=
  match index s sep with
  | some i => (s.take i, s.drop (i + 1), true)
  | none => (s, [], false)

theorem cut_of_not_mem {s : GoString} {sep : UInt8} (h : sep ∉ s) :
    cut s sep = (s, [], false) := by
  simp [cut, index_eq_none h]

theorem cut_append_cons {b : GoString} {sep : UInt8} (a : GoString) (h : sep ∉ b) :
    cut (b ++ sep :: a) sep = (b, a, true) := by
  simp [cut, index_append_cons a h]

@[simp] theorem take_append_cons_length (b a : GoString) (c : UInt8) :
    (b ++ c :: a).take b.length = b := by simp

@[simp] theorem drop_append_cons_length (b a : GoString) (c : UInt8) :
    (b ++ c :: a).drop (b.length + 1) = a := by simp

/-- `strings.HasPrefix(s, pre)`. -/
def hasPrefix (s pre : GoString) : Bool := pre.isPrefixOf s

/-- `strings.HasSuffix(s, suf)`. -/
def hasSuffix (s suf : GoString) : Bool := suf.isSuffixOf s

/-- `strings.TrimPrefix(s, pre)`. -/
def trimPrefix (s pre : GoString) : GoString := if pre.isPrefixOf s then s.drop pre.length else s

/-- `strings.Count(s, sep)` for a one-byte separator. -/
def count (s : GoString) (sep : UInt8) : Nat := s.count sep

/-- The pieces of `s` between the bytes `sep` accepts, one piece (`s` itself) when
there is none: `strings.Split` for a one-byte separator, and the pieces of which
`strings.Fields` and `strings.FieldsFunc` keep the non-empty ones. -/
def splitBy (sep : UInt8 → Bool) : GoString → List GoString
  | [] => [[]]
  | c :: s =>
    if sep c then [] :: splitBy sep s
    else match splitBy sep s with
      | p :: ps => (c :: p) :: ps
      | [] => [[c]]

/-- `strings.Split(s, sep)` for a one-byte separator. -/
def split (s : GoString) (sep : UInt8) : List GoString := splitBy (· = sep) s

theorem splitBy_of_forall {sep : UInt8 → Bool} {s : GoString} (h : ∀ c ∈ s, sep c = false) :
    splitBy sep s = [s] := by
  induction s with
  | nil => rfl
  | cons c s ih =>
    simp only [List.mem_cons, forall_eq_or_imp] at h
    simp [splitBy, h.1, ih h.2]

/-- A separator after a piece without one ends that piece. -/
theorem splitBy_append_cons {sep : UInt8 → Bool} {b : GoString} {c : UInt8} (a : GoString)
    (hb : ∀ x ∈ b, sep x = false) (hc : sep c = true) :
    splitBy sep (b ++ c :: a) = b :: splitBy sep a := by
  induction b with
  | nil => simp [splitBy, hc]
  | cons x b ih =>
    simp only [List.mem_cons, forall_eq_or_imp] at hb
    simp [splitBy, hb.1, ih hb.2]

theorem split_of_not_mem {s : GoString} {sep : UInt8} (h : sep ∉ s) : split s sep = [s] :=
  splitBy_of_forall fun _ hc => decide_eq_false fun e => h (e ▸ hc)

/-- The first piece of `strings.Split(s, sep)` is the text before the first
separator. -/
theorem head_split (s : GoString) (sep : UInt8) :
    (split s sep).head? = some (s.takeWhile (· ≠ sep)) := by
  unfold split
  induction s with
  | nil => rfl
  | cons c s ih =>
    by_cases hc : c = sep
    · simp [splitBy, hc]
    · obtain ⟨p, ps, hs, rfl⟩ :
          ∃ p ps, splitBy (· = sep) s = p :: ps ∧ p = s.takeWhile (· ≠ sep) := by
        cases h : splitBy (· = sep) s with
        | nil => simp [h] at ih
        | cons p ps =>
          simp only [h, List.head?_cons, Option.some.injEq] at ih
          exact ⟨p, ps, rfl, ih⟩
      simp [splitBy, hc, hs]

/-- The white space `strings.Fields` splits at, on a string of ASCII bytes: tab,
newline, vertical tab, form feed, carriage return and space. -/
def asciiSpace (c : UInt8) : Bool := c = 9 ∨ c = 10 ∨ c = 11 ∨ c = 12 ∨ c = 13 ∨ c = 32

/-- `strings.Fields(s)`: the maximal runs of bytes that are not white space. -/
def fields (s : GoString) : List GoString := (splitBy asciiSpace s).filter (!·.isEmpty)

/-- `strings.FieldsFunc(s, f)` for a test `f` on single bytes: the maximal runs of
bytes `f` rejects. -/
def fieldsFunc (s : GoString) (f : UInt8 → Bool) : List GoString :=
  (splitBy f s).filter (!·.isEmpty)

/-- `strings.ToLower(s)` on an ASCII string, the only kind it is given here (a
scheme, which `getScheme` only accepts of ASCII letters, digits, `+`, `-` and `.`). -/
def toLower (s : GoString) : GoString :=
  s.map fun c => if 'A'.toUInt8 ≤ c ∧ c ≤ 'Z'.toUInt8 then c + 32 else c

/-! ## `strconv.Atoi` -/

/-- A decimal digit. -/
def isDigit (c : UInt8) : Bool := '0'.toUInt8 ≤ c && c ≤ '9'.toUInt8

/-- One step of reading decimal digits, most significant first. -/
def digitStep (n : Nat) (c : UInt8) : Nat := n * 10 + (c - '0'.toUInt8).toNat

/-- The value of a run of decimal digits. -/
def digitsValue (s : GoString) : Nat := s.foldl digitStep 0

/-- The sign `strconv` takes off the front (`true` for `-`), and the rest. -/
def splitSign (s : GoString) : Bool × GoString :=
  match s with
  | c :: t =>
    if c = '-'.toUInt8 then (true, t) else if c = '+'.toUInt8 then (false, t) else (false, s)
  | [] => (false, [])

/-- The `*strconv.NumError` that `Atoi` returns for the input `s`: the input
quoted, then the reason. -/
def numError (s reason : GoString) : GoError :=
  .quoted (lit "strconv.Atoi: parsing ") s (lit ": " ++ reason)

/-- The digit loop of `strconv.ParseUint(s, 10, 64)` from the value `n` read so
far: the value, or the kind of its error, `false` at a byte that is not a digit
and `true` once the value passes `2^64 - 1`. -/
def parseUintDigits (n : Nat) : GoString → Except Bool Nat
  | [] => .ok n
  | c :: s =>
    if isDigit c then
      if digitStep n c < 18446744073709551616 then parseUintDigits (digitStep n c) s
      else .error true
    else .error false

/-- `strconv.Atoi(s)` on a 64-bit platform. Fewer than nineteen bytes take the
fast path, a sign and then digits; every other input goes through
`ParseInt(s, 10, 0)`, which fails on the first byte that is not a digit or once
the digits read pass 64 bits, and then refuses a value outside `int64`
(`9223372036854775808` is `2^63`). Both paths report `s` itself. -/
def atoi (s : GoString) : Except GoError Int :=
  let (neg, digits) := splitSign s
  if 0 < s.length ∧ s.length < 19 then
    if digits = [] ∨ digits.all isDigit = false then .error (numError s (lit "invalid syntax"))
    else .ok (if neg then -(digitsValue digits : Int) else digitsValue digits)
  else if digits = [] then .error (numError s (lit "invalid syntax"))
  else match parseUintDigits 0 digits with
    | .error false => .error (numError s (lit "invalid syntax"))
    | .error true => .error (numError s (lit "value out of range"))
    | .ok un =>
      if (neg = false ∧ 9223372036854775808 ≤ un) ∨ (neg ∧ 9223372036854775808 < un) then
        .error (numError s (lit "value out of range"))
      else .ok (if neg then -(un : Int) else un)

/-- A digit byte is `'0'` plus its value. -/
theorem isDigit_value {c : UInt8} (h : isDigit c = true) :
    (c - '0'.toUInt8).toNat = c.toNat - 48 ∧ 48 ≤ c.toNat ∧ c.toNat ≤ 57 := by
  simp only [isDigit, Bool.and_eq_true, decide_eq_true_eq] at h
  exact ⟨UInt8.toNat_sub_of_le _ _ h.1, h.1, h.2⟩

@[simp] theorem foldl_digitStep_zero (s : GoString) : s.foldl digitStep 0 = digitsValue s := rfl

theorem le_foldl_digitStep (s : GoString) (n : Nat) : n ≤ s.foldl digitStep n := by
  induction s generalizing n with
  | nil => exact Nat.le_refl n
  | cons c s ih => exact Nat.le_trans (by unfold digitStep; omega) (ih _)

/-- Digits read from `n` stay below `(n + 1)·10^k` after `k` of them. -/
theorem foldl_digitStep_lt {s : GoString} (hs : ∀ c ∈ s, isDigit c = true) (n : Nat) :
    s.foldl digitStep n < (n + 1) * Nat.pow 10 s.length := by
  induction s generalizing n with
  | nil => simp [Nat.pow]
  | cons c s ih =>
    simp only [List.mem_cons, forall_eq_or_imp] at hs
    have hc := isDigit_value hs.1
    calc s.foldl digitStep (digitStep n c)
          < (digitStep n c + 1) * Nat.pow 10 s.length := ih hs.2 _
      _ ≤ (n + 1) * 10 * Nat.pow 10 s.length :=
          Nat.mul_le_mul_right _ (by unfold digitStep; omega)
      _ = (n + 1) * Nat.pow 10 (c :: s).length := by
        show _ = (n + 1) * (Nat.pow 10 s.length * 10)
        rw [Nat.mul_assoc, Nat.mul_comm 10]

/-- `ParseUint`'s digit loop on digits alone: their value, or a range error once
it passes 64 bits. -/
theorem parseUintDigits_digits {s : GoString} (hs : ∀ c ∈ s, isDigit c = true) {n : Nat}
    (hn : n < 18446744073709551616) :
    parseUintDigits n s =
      if s.foldl digitStep n < 18446744073709551616 then .ok (s.foldl digitStep n)
      else .error true := by
  induction s generalizing n with
  | nil => simp [parseUintDigits, hn]
  | cons c s ih =>
    simp only [List.mem_cons, forall_eq_or_imp] at hs
    have hle := le_foldl_digitStep s (digitStep n c)
    by_cases h : digitStep n c < 18446744073709551616
    · simp only [parseUintDigits, hs.1, if_true, h, List.foldl_cons, ih hs.2 h]
    · simp only [parseUintDigits, hs.1, if_true, h, List.foldl_cons, if_false]
      rw [if_neg (by omega)]

/-- A non-empty run of decimal digits reads back as its value when that value is
below `2^63`, and is refused as out of range otherwise. -/
theorem atoi_digits {d : GoString} (hne : d ≠ []) (hd : ∀ c ∈ d, isDigit c) :
    atoi d = if digitsValue d < 9223372036854775808 then .ok (digitsValue d : Int)
      else .error (numError d (lit "value out of range")) := by
  obtain ⟨c, t, rfl⟩ := List.exists_cons_of_ne_nil hne
  have hc : isDigit c := hd c (List.mem_cons_self _ _)
  have hsign : splitSign (c :: t) = (false, c :: t) := by
    have : c ≠ '-'.toUInt8 ∧ c ≠ '+'.toUInt8 := by
      constructor <;> (rintro rfl; revert hc; decide)
    simp [splitSign, this]
  have hall : (c :: t).all isDigit = true := List.all_eq_true.mpr hd
  have hv : digitsValue (c :: t) < Nat.pow 10 (c :: t).length := by
    simpa using foldl_digitStep_lt hd 0
  simp only [atoi, hsign, List.cons_ne_nil, hall, false_or, if_false, Bool.true_eq_false,
    Bool.false_eq_true, parseUintDigits_digits hd (by decide : 0 < 18446744073709551616),
    foldl_digitStep_zero, true_and, false_and, or_false]
  by_cases hshort : 0 < (c :: t).length ∧ (c :: t).length < 19
  · have : Nat.pow 10 (c :: t).length ≤ 1000000000000000000 :=
      Nat.pow_le_pow_right (n := 10) (by omega) (by omega : (c :: t).length ≤ 18)
    rw [if_pos hshort, if_pos (by omega)]
  · rw [if_neg hshort]
    by_cases h64 : digitsValue (c :: t) < 18446744073709551616
    · simp only [h64, if_true]
      split_ifs <;> first | rfl | omega
    · simp only [h64, if_false]; rw [if_neg (by omega)]

/-! ## `%d` -/

/-- The decimal digits of `n`, least significant first, as `fmt` writes them for
`%d`: it divides by ten while the value is ten or more. `fuel` bounds the
divisions. -/
def decimalDigits : (fuel n : Nat) → List Nat
  | 0, _ => []
  | fuel + 1, n => if n < 10 then [n] else n % 10 :: decimalDigits fuel (n / 10)

/-- The byte of the decimal digit `d`. -/
def digitByte (d : Nat) : UInt8 := '0'.toUInt8 + d.toUInt8

/-- `fmt.Sprintf("%d", n)` for a natural number. -/
def decimal (n : Nat) : GoString := ((decimalDigits (n + 1) n).reverse).map digitByte

/-- `fmt.Sprintf("%d", n)` for an integer. -/
def decimalInt (n : Int) : GoString :=
  if n < 0 then '-'.toUInt8 :: decimal n.natAbs else decimal n.toNat

theorem digitByte_spec {d : Nat} (h : d < 10) :
    isDigit (digitByte d) = true ∧ (digitByte d - '0'.toUInt8).toNat = d := by
  have key : ∀ e : Fin 10,
      isDigit (digitByte e) = true ∧ (digitByte e - '0'.toUInt8).toNat = e := by
    decide
  exact key ⟨d, h⟩

theorem decimalDigits_lt (fuel n : Nat) : ∀ d ∈ decimalDigits fuel n, d < 10 := by
  induction fuel generalizing n with
  | zero => simp [decimalDigits]
  | succ fuel ih =>
    unfold decimalDigits
    split_ifs with h
    · simpa using h
    · simpa using ⟨Nat.mod_lt _ (by omega), ih _⟩

theorem decimal_digits (n : Nat) : ∀ c ∈ decimal n, isDigit c = true := by
  simp only [decimal, List.mem_map, List.mem_reverse]
  rintro _ ⟨d, hd, rfl⟩
  exact (digitByte_spec (decimalDigits_lt _ _ d hd)).1

theorem decimal_ne_nil (n : Nat) : decimal n ≠ [] := by
  simp [decimal, decimalDigits]; split_ifs <;> simp

/-- With enough fuel, the digits read back, most significant first, as `n`. -/
theorem digitsValue_decimalDigits {fuel n : Nat} (h : n < fuel) :
    digitsValue ((decimalDigits fuel n).reverse.map digitByte) = n := by
  induction fuel generalizing n with
  | zero => omega
  | succ fuel ih =>
    unfold decimalDigits
    split_ifs with h10
    · simp [digitsValue, digitStep, (digitByte_spec h10).2]
    · rw [List.reverse_cons, List.map_append, digitsValue, List.foldl_append, ← digitsValue,
        ih (by omega)]
      simp [digitStep, (digitByte_spec (Nat.mod_lt n (by omega : 10 > 0))).2]
      omega

/-- `%d` and `Atoi` agree: a natural number below `2^63` reads back. -/
theorem atoi_decimal {n : Nat} (h : n < 9223372036854775808) : atoi (decimal n) = .ok n := by
  rw [atoi_digits (decimal_ne_nil n) (decimal_digits n), decimal,
    digitsValue_decimalDigits (by omega)]
  simp [h]

end RedisSync
