import RedisSync.Strings

/-!
# `net/url`: `Parse`, `Query`, and the escapes they decode

`NewRedisSync` reads everything it configures out of `url.Parse(uri)`: the
scheme, the host, the path, the user information and the query. This file
translates the functions of Go's `net/url` that `Parse` and `URL.Query` run,
as they stand through Go 1.24 (before bracketed hosts were required to be IP
addresses): `getScheme`, the query cut, `parseAuthority` with `parseHost`,
`setPath`, `setFragment`, `unescape` with `shouldEscape`, and `parseQuery`.
`Parse` always calls the internal `parse` with `viaRequest = false`, so the two
branches only `ParseRequestURI` reaches are left out.

`unescape` makes two passes: a check (`unescapeCheck`) that refuses malformed
escapes, and in a host any byte `shouldEscape` names, and a decoding
(`unescapeWrite`). `unescape_eq_write` says that once the check passes the
result is the decoding; `unescape_of_pctEncoded` that a component written in
any percent-encoding (`PctEncoded`, every byte either kept where the component
allows it or written `%XY`) decodes back to the original.
-/

namespace RedisSync

namespace Url

/-! ## Bytes and escapes -/

/-- `url.encoding`: the component a byte is escaped or unescaped for. -/
inductive Encoding where
  | path
  | pathSegment
  | host
  | zone
  | userPassword
  | queryComponent
  | fragment
  deriving DecidableEq, Repr

/-- An ASCII letter or digit, which no component escapes. -/
def isAlnum (c : UInt8) : Bool :=
  ('a'.toUInt8 ≤ c && c ≤ 'z'.toUInt8) || ('A'.toUInt8 ≤ c && c ≤ 'Z'.toUInt8) ||
    ('0'.toUInt8 ≤ c && c ≤ '9'.toUInt8)

/-- The bytes a host (or zone) may hold unescaped besides the unreserved ones:
the sub-delimiters, `:` and `[ ]` for the port and IPv6 literals, and `< > "`.
The last two bytes are the apostrophe and the double quote. -/
def hostExtra : GoString := lit "!$&()*+,;=:[]<>" ++ [39, 34]

/-- A byte `validUserinfo` accepts; the last byte listed is the apostrophe. -/
def userinfoByte (r : UInt8) : Bool := isAlnum r || r ∈ lit "-._:~!$&()*+,;=%@" ++ [39]

/-- `shouldEscape(c, mode)`: whether `escape` writes `c` as `%XY` in the component
`mode`; in a host or zone, also whether `unescape` refuses it there. -/
def shouldEscape (c : UInt8) (mode : Encoding) : Bool :=
  if isAlnum c then false
  else if (mode = .host ∨ mode = .zone) ∧ c ∈ hostExtra then false
  else if c ∈ lit "-_.~" then false
  else if c ∈ lit "$&+,/:;=?@" then
    match mode with
    | .path => c = '?'.toUInt8
    | .pathSegment => c = '/'.toUInt8 ∨ c = ';'.toUInt8 ∨ c = ','.toUInt8 ∨ c = '?'.toUInt8
    | .userPassword => c = '@'.toUInt8 ∨ c = '/'.toUInt8 ∨ c = '?'.toUInt8 ∨ c = ':'.toUInt8
    | .queryComponent => true
    | .fragment => false
    | .host | .zone => true
  else if mode = .fragment ∧ c ∈ lit "!()*" then false
  else true

/-- `ishex(c)`. -/
def ishex (c : UInt8) : Bool :=
  ('0'.toUInt8 ≤ c && c ≤ '9'.toUInt8) || ('a'.toUInt8 ≤ c && c ≤ 'f'.toUInt8) ||
    ('A'.toUInt8 ≤ c && c ≤ 'F'.toUInt8)

/-- `unhex(c)`. -/
def unhex (c : UInt8) : UInt8 :=
  if '0'.toUInt8 ≤ c ∧ c ≤ '9'.toUInt8 then c - '0'.toUInt8
  else if 'a'.toUInt8 ≤ c ∧ c ≤ 'f'.toUInt8 then c - 'a'.toUInt8 + 10
  else if 'A'.toUInt8 ≤ c ∧ c ≤ 'F'.toUInt8 then c - 'A'.toUInt8 + 10
  else 0

/-- `"0123456789ABCDEF"[n]`. -/
def upperhex (n : Nat) : UInt8 := (lit "0123456789ABCDEF").getD n 0

/-- `%XY`, how `escape` writes a byte: `upperhex[c>>4]`, `upperhex[c&15]`. -/
def pctByte (c : UInt8) : GoString :=
  ['%'.toUInt8, upperhex (c.toNat / 16), upperhex (c.toNat % 16)]

/-- `escape(s, mode)`. Go counts the bytes to change first and copies only when
there is one; the result is this map. -/
def escape (s : GoString) (mode : Encoding) : GoString :=
  s.flatMap fun c =>
    if c = ' '.toUInt8 ∧ mode = .queryComponent then ['+'.toUInt8]
    else if shouldEscape c mode then pctByte c
    else [c]

/-- `EscapeError(s)`. -/
def escapeError (s : GoString) : GoError := .quoted (lit "invalid URL escape ") s []

/-- `InvalidHostError(s)`. -/
def invalidHostError (s : GoString) : GoError :=
  .quoted (lit "invalid character ") s (lit " in host name")

/-- The first loop of `unescape(s, mode)`, from a position on: it refuses a `%` not
followed by two hexadecimal digits, in a host an escaped ASCII byte other than
`%25` and any byte `shouldEscape` names, in a zone an escape of such a byte; and
it counts the escapes, and whether a `+` will turn into a space. -/
def unescapeCheck (mode : Encoding) : GoString → Except GoError (Nat × Bool)
  | [] => .ok (0, false)
  | c :: s =>
    if c = '%'.toUInt8 then
      match s with
      | h1 :: h2 :: rest =>
        if ¬(ishex h1 ∧ ishex h2) then .error (escapeError [c, h1, h2])
        else if mode = .host ∧ unhex h1 < 8 ∧ [c, h1, h2] ≠ lit "%25" then
          .error (escapeError [c, h1, h2])
        else if mode = .zone ∧ [c, h1, h2] ≠ lit "%25" ∧
            (unhex h1 <<< 4 ||| unhex h2) ≠ ' '.toUInt8 ∧
            shouldEscape (unhex h1 <<< 4 ||| unhex h2) .host then
          .error (escapeError [c, h1, h2])
        else (unescapeCheck mode rest).map fun (n, hasPlus) => (n + 1, hasPlus)
      | _ => .error (escapeError (c :: s))
    else if c = '+'.toUInt8 then
      (unescapeCheck mode s).map fun (n, hasPlus) => (n, hasPlus || mode = .queryComponent)
    else if (mode = .host ∨ mode = .zone) ∧ c < 128 ∧ shouldEscape c mode then
      .error (invalidHostError [c])
    else unescapeCheck mode s

/-- The second loop of `unescape`: every escape decoded, and `+` turned into a
space in a query component. (A `%` too close to the end, which the check has
refused, is copied with what follows it.) -/
def unescapeWrite (mode : Encoding) : GoString → GoString
  | [] => []
  | c :: s =>
    if c = '%'.toUInt8 then
      match s with
      | h1 :: h2 :: rest => (unhex h1 <<< 4 ||| unhex h2) :: unescapeWrite mode rest
      | rest => c :: rest
    else if c = '+'.toUInt8 then
      (if mode = .queryComponent then ' '.toUInt8 else c) :: unescapeWrite mode s
    else c :: unescapeWrite mode s

/-- `unescape(s, mode)`: the string itself when it holds no escape and no `+` to
turn into a space, otherwise its decoding. -/
def unescape (s : GoString) (mode : Encoding) : Except GoError GoString :=
  match unescapeCheck mode s with
  | .error err => .error err
  | .ok (n, hasPlus) => if n = 0 ∧ hasPlus = false then .ok s else .ok (unescapeWrite mode s)

/-! ## Byte classes -/

/-- A letter or digit lies between `0` and `z`. -/
theorem isAlnum_range {c : UInt8} (h : isAlnum c = true) : 48 ≤ c.toNat ∧ c.toNat ≤ 122 := by
  simp only [isAlnum, Bool.or_eq_true, Bool.and_eq_true, decide_eq_true_eq] at h
  have le : ∀ {a b : UInt8}, a ≤ b → a.toNat ≤ b.toNat := fun h => h
  rcases h with (⟨h1, h2⟩ | ⟨h1, h2⟩) | ⟨h1, h2⟩ <;> have := le h1 <;> have := le h2 <;>
    simp only [show 'a'.toUInt8.toNat = 97 from rfl, show 'z'.toUInt8.toNat = 122 from rfl,
      show 'A'.toUInt8.toNat = 65 from rfl, show 'Z'.toUInt8.toNat = 90 from rfl,
      show '0'.toUInt8.toNat = 48 from rfl, show '9'.toUInt8.toNat = 57 from rfl] at * <;> omega

theorem ishex_isAlnum {c : UInt8} (h : ishex c = true) : isAlnum c = true := by
  simp only [ishex, isAlnum, Bool.or_eq_true, Bool.and_eq_true, decide_eq_true_eq] at h ⊢
  rcases h with (⟨h1, h2⟩ | ⟨h1, h2⟩) | ⟨h1, h2⟩
  · exact Or.inr ⟨h1, h2⟩
  · exact Or.inl (Or.inl ⟨h1, UInt8.le_trans h2 (by decide)⟩)
  · exact Or.inl (Or.inr ⟨h1, UInt8.le_trans h2 (by decide)⟩)

theorem isDigit_isAlnum {c : UInt8} (h : isDigit c = true) : isAlnum c = true := by
  simp only [isDigit, isAlnum, Bool.or_eq_true, Bool.and_eq_true] at h ⊢
  exact Or.inr h

@[simp] theorem shouldEscape_of_isAlnum {c : UInt8} (h : isAlnum c = true) (mode : Encoding) :
    shouldEscape c mode = false := by
  simp [shouldEscape, h]

/-- `%` is escaped in every component. -/
@[simp] theorem shouldEscape_pct (mode : Encoding) : shouldEscape '%'.toUInt8 mode = true := by
  cases mode <;> decide

/-- A byte a user-information component may hold unescaped is one `validUserinfo`
accepts. -/
theorem userinfoByte_of_kept {c : UInt8} (h : shouldEscape c .userPassword = false) :
    userinfoByte c = true := by
  by_cases ha : isAlnum c = true
  · simp [userinfoByte, ha]
  have hL : ∀ x ∈ lit "-_.~" ++ lit "$&+,/:;=?@", shouldEscape x .userPassword = false →
      userinfoByte x = true := by decide
  refine hL c ?_ h
  simp only [shouldEscape, ha, Bool.false_eq_true, if_false, reduceCtorEq, or_self, false_and] at h
  split_ifs at h with h1 h2
  · exact List.mem_append_left _ h1
  · exact List.mem_append_right _ h2

/-! ## Percent-encoding -/

/-- `t` spells `s` percent-encoded for the component `mode`: every byte either
kept, where `mode` allows it unescaped, or written `%` and two hexadecimal digits
(of either case) that `unhex` reads back as it. -/
inductive PctEncoded (mode : Encoding) : GoString → GoString → Prop
  | nil : PctEncoded mode [] []
  | keep {c : UInt8} {s t : GoString} :
      shouldEscape c mode = false → PctEncoded mode s t → PctEncoded mode (c :: s) (c :: t)
  | escape {c h1 h2 : UInt8} {s t : GoString} :
      ishex h1 = true → ishex h2 = true → (unhex h1 <<< 4 ||| unhex h2) = c →
      PctEncoded mode s t → PctEncoded mode (c :: s) ('%'.toUInt8 :: h1 :: h2 :: t)

/-- A string all of whose bytes `mode` keeps is its own encoding. -/
theorem PctEncoded.refl {mode : Encoding} {s : GoString}
    (h : ∀ c ∈ s, shouldEscape c mode = false) : PctEncoded mode s s := by
  induction s with
  | nil => exact .nil
  | cons c s ih =>
    exact .keep (h c (List.mem_cons_self _ _)) (ih fun x hx => h x (List.mem_cons_of_mem _ hx))

/-- Every byte of an encoding is one `mode` keeps, a `%`, or a hexadecimal digit. -/
theorem PctEncoded.mem {mode : Encoding} {s t : GoString} (h : PctEncoded mode s t) {c : UInt8}
    (hc : c ∈ t) : shouldEscape c mode = false ∨ c = '%'.toUInt8 ∨ ishex c = true := by
  induction h with
  | nil => simp at hc
  | keep hk _ ih =>
    rcases List.mem_cons.mp hc with rfl | hc
    · exact .inl hk
    · exact ih hc
  | escape h1 h2 _ _ ih =>
    simp only [List.mem_cons] at hc
    rcases hc with rfl | rfl | rfl | hc
    · exact .inr (.inl rfl)
    · exact .inr (.inr h1)
    · exact .inr (.inr h2)
    · exact ih hc

/-- A byte `mode` escapes, other than `%` and the hexadecimal digits, never
appears in an encoding. -/
theorem PctEncoded.not_mem {mode : Encoding} {s t : GoString} (h : PctEncoded mode s t)
    {x : UInt8} (hx : shouldEscape x mode = true ∧ x ≠ '%'.toUInt8 ∧ ishex x = false) :
    x ∉ t := fun hm => by
  rcases h.mem hm with h1 | h1 | h1 <;> simp_all

/-! ## `unescape` -/

/-- The check on a byte other than `%`. -/
theorem unescapeCheck_cons {mode : Encoding} {c : UInt8} (t : GoString) (hc : c ≠ '%'.toUInt8) :
    unescapeCheck mode (c :: t) =
      if c = '+'.toUInt8 then
        (unescapeCheck mode t).map fun (n, hasPlus) => (n, hasPlus || mode = .queryComponent)
      else if (mode = .host ∨ mode = .zone) ∧ c < 128 ∧ shouldEscape c mode then
        .error (invalidHostError [c])
      else unescapeCheck mode t := by
  rcases t with _ | ⟨h1, _ | ⟨h2, rest⟩⟩ <;> simp only [unescapeCheck, if_neg hc]

/-- The decoding of a byte other than `%`. -/
theorem unescapeWrite_cons {mode : Encoding} {c : UInt8} (t : GoString) (hc : c ≠ '%'.toUInt8) :
    unescapeWrite mode (c :: t) =
      (if c = '+'.toUInt8 ∧ mode = .queryComponent then ' '.toUInt8 else c) ::
        unescapeWrite mode t := by
  rcases t with _ | ⟨h1, _ | ⟨h2, rest⟩⟩ <;> simp only [unescapeWrite, if_neg hc] <;>
    by_cases hp : c = '+'.toUInt8 <;> simp [hp]

/-- A byte a component keeps is decoded as itself. -/
theorem unescapeWrite_kept {mode : Encoding} {c : UInt8} (t : GoString)
    (hk : shouldEscape c mode = false) :
    unescapeWrite mode (c :: t) = c :: unescapeWrite mode t := by
  have hc : c ≠ '%'.toUInt8 := fun he => by simp [he] at hk
  rw [unescapeWrite_cons t hc, if_neg]
  rintro ⟨rfl, rfl⟩
  revert hk; decide

/-- Decoding an encoding gives back what it encodes. -/
theorem unescapeWrite_pctEncoded {mode : Encoding} {s t : GoString} (h : PctEncoded mode s t) :
    unescapeWrite mode t = s := by
  induction h with
  | nil => rfl
  | keep hk _ ih => rw [unescapeWrite_kept _ hk, ih]
  | escape _ _ hc _ ih => simp [unescapeWrite, hc, ih]

/-- Outside a host or a zone the check accepts every encoding. -/
theorem unescapeCheck_pctEncoded {mode : Encoding} (hm : mode ≠ .host ∧ mode ≠ .zone)
    {s t : GoString} (h : PctEncoded mode s t) : ∃ r, unescapeCheck mode t = .ok r := by
  induction h with
  | nil => exact ⟨_, rfl⟩
  | @keep c _ _ hk _ ih =>
    obtain ⟨r, hr⟩ := ih
    have hc : c ≠ '%'.toUInt8 := fun he => by simp [he] at hk
    rw [unescapeCheck_cons _ hc, hr]
    split_ifs with hp h3
    · exact ⟨_, rfl⟩
    · simp [hk] at h3
    · exact ⟨r, rfl⟩
  | escape h1 h2 _ _ ih =>
    obtain ⟨r, hr⟩ := ih
    exact ⟨_, by simp [unescapeCheck, h1, h2, hm, hr]; rfl⟩

/-- A check that finds no escape and no `+` to decode means decoding changes
nothing. -/
theorem unescapeWrite_self {mode : Encoding} {t : GoString}
    (h : unescapeCheck mode t = .ok (0, false)) : unescapeWrite mode t = t := by
  induction t with
  | nil => rfl
  | cons c t ih =>
    by_cases hc : c = '%'.toUInt8
    · rcases t with _ | ⟨h1, _ | ⟨h2, rest⟩⟩ <;>
        simp only [unescapeCheck, hc, if_true] at h
      · cases h
      · cases h
      · split_ifs at h
        cases hr : unescapeCheck mode rest <;> simp [hr, Except.map] at h
    rw [unescapeCheck_cons t hc] at h
    rw [unescapeWrite_cons t hc]
    cases hr : unescapeCheck mode t with
    | error e => split_ifs at h <;> simp [hr, Except.map] at h
    | ok r =>
      obtain ⟨n, b⟩ := r
      split_ifs at h with hp h3
      · simp only [hr, Except.map, Except.ok.injEq, Prod.mk.injEq, Bool.or_eq_false_iff,
          decide_eq_false_iff_not] at h
        rw [if_neg (fun h' => h.2.2 h'.2), ih (by rw [hr, h.1, h.2.1])]
      · rw [if_neg (fun h' => hp h'.1), ih h]

/-- Once the check passes, `unescape` returns the decoding. -/
theorem unescape_eq_write {mode : Encoding} {t : GoString} {r : Nat × Bool}
    (h : unescapeCheck mode t = .ok r) : unescape t mode = .ok (unescapeWrite mode t) := by
  obtain ⟨n, hasPlus⟩ := r
  simp only [unescape, h]
  split_ifs with h0
  · rw [h0.1, h0.2] at h
    rw [unescapeWrite_self h]
  · rfl

/-- Outside a host or a zone, every percent-encoding unescapes to what it encodes. -/
theorem unescape_of_pctEncoded {mode : Encoding} (hm : mode ≠ .host ∧ mode ≠ .zone)
    {s t : GoString} (h : PctEncoded mode s t) : unescape t mode = .ok s := by
  obtain ⟨r, hr⟩ := unescapeCheck_pctEncoded hm h
  rw [unescape_eq_write hr, unescapeWrite_pctEncoded h]

/-- A string whose every byte `mode` keeps unescapes to itself, in every component. -/
theorem unescape_literal {mode : Encoding} {s : GoString}
    (h : ∀ c ∈ s, shouldEscape c mode = false) : unescape s mode = .ok s := by
  suffices hc : unescapeCheck mode s = .ok (0, false) by simp [unescape, hc]
  induction s with
  | nil => rfl
  | cons c s ih =>
    have hk := h c (List.mem_cons_self _ _)
    have hs := ih fun x hx => h x (List.mem_cons_of_mem _ hx)
    have hc : c ≠ '%'.toUInt8 := fun he => by simp [he] at hk
    rw [unescapeCheck_cons s hc, hs]
    split_ifs with hp h3
    · have : mode ≠ .queryComponent := by rintro rfl; subst hp; revert hk; decide
      simp [Except.map, this]
    · simp [hk] at h3
    · rfl

/-- A string whose every byte `mode` keeps escapes to itself. -/
theorem escape_literal {mode : Encoding} (hm : mode ≠ .queryComponent) {s : GoString}
    (h : ∀ c ∈ s, shouldEscape c mode = false) : escape s mode = s := by
  induction s with
  | nil => rfl
  | cons c s ih =>
    simp only [escape, List.flatMap_cons] at ih ⊢
    rw [ih fun x hx => h x (List.mem_cons_of_mem _ hx)]
    simp [hm, h c (List.mem_cons_self _ _)]

/-! ## Scheme, host and user information -/

/-- The loop of `getScheme(rawURL)` from byte `i` on, `s` being `rawURL[i:]`. -/
def getSchemeFrom (rawURL : GoString) : Nat → GoString → Except GoError (GoString × GoString)
  | _, [] => .ok ([], rawURL)
  | i, c :: s =>
    if ('a'.toUInt8 ≤ c ∧ c ≤ 'z'.toUInt8) ∨ ('A'.toUInt8 ≤ c ∧ c ≤ 'Z'.toUInt8) then
      getSchemeFrom rawURL (i + 1) s
    else if ('0'.toUInt8 ≤ c ∧ c ≤ '9'.toUInt8) ∨ c = '+'.toUInt8 ∨ c = '-'.toUInt8 ∨
        c = '.'.toUInt8 then
      if i = 0 then .ok ([], rawURL) else getSchemeFrom rawURL (i + 1) s
    else if c = ':'.toUInt8 then
      if i = 0 then .error (.new (lit "missing protocol scheme")) else .ok (rawURL.take i, s)
    else .ok ([], rawURL)

/-- `getScheme(rawURL)`: the scheme before the first `:`, and the rest. -/
def getScheme (rawURL : GoString) : Except GoError (GoString × GoString) :=
  getSchemeFrom rawURL 0 rawURL

/-- `stringContainsCTLByte(s)`: a byte below a space, or DEL. -/
def stringContainsCTLByte (s : GoString) : Bool := s.any fun b => b < ' '.toUInt8 || b = 127

/-- `validOptionalPort(port)`: empty, or `:` followed by decimal digits. -/
def validOptionalPort (port : GoString) : Bool :=
  match port with
  | [] => true
  | c :: digits => c = ':'.toUInt8 && digits.all isDigit

/-- `fmt.Errorf("invalid port %q after host", colonPort)`. -/
def invalidPortError (colonPort : GoString) : GoError :=
  .quoted (lit "invalid port ") colonPort (lit " after host")

/-- `parseHost(host)`: a bracketed IPv6 literal with an optional `%25` zone, or a
name, each with an optional port, unescaped. -/
def parseHost (host : GoString) : Except GoError GoString :=
  if hasPrefix host (lit "[") then
    match lastIndex host ']'.toUInt8 with
    | none => .error (.new (lit "missing ']' in host"))
    | some i =>
      let colonPort := host.drop (i + 1)
      if validOptionalPort colonPort = false then .error (invalidPortError colonPort)
      else match indexOf (host.take i) (lit "%25") with
        | some zone => do
          let host1 ← unescape (host.take zone) .host
          let host2 ← unescape ((host.take i).drop zone) .zone
          let host3 ← unescape (host.drop i) .host
          pure (host1 ++ host2 ++ host3)
        | none => unescape host .host
  else
    match lastIndex host ':'.toUInt8 with
    | some i =>
      let colonPort := host.drop i
      if validOptionalPort colonPort = false then .error (invalidPortError colonPort)
      else unescape host .host
    | none => unescape host .host

/-- `validUserinfo(s)`. Go ranges over the runes of `s`; every rune it accepts is
ASCII, so a byte from `0x80` up (part of a non-ASCII rune, or invalid) fails it
in both readings. -/
def validUserinfo (s : GoString) : Bool := s.all userinfoByte

/-- `*url.Userinfo`. -/
structure Userinfo where
  username : GoString
  password : GoString
  passwordSet : Bool
  deriving DecidableEq, Repr

/-- `url.User(username)`. -/
def user (username : GoString) : Userinfo := ⟨username, [], false⟩

/-- `url.UserPassword(username, password)`. -/
def userPassword (username password : GoString) : Userinfo := ⟨username, password, true⟩

/-- `u.Password()`, on a non-nil `u`. -/
def Userinfo.Password (u : Userinfo) : GoString × Bool := (u.password, u.passwordSet)

/-- `parseAuthority(authority)`: the user information before the last `@`, without
a `:` a user name alone, with one a user name and a password; and the host. -/
def parseAuthority (authority : GoString) : Except GoError (Option Userinfo × GoString) :=
  match lastIndex authority '@'.toUInt8 with
  | none => (parseHost authority).map fun host => (none, host)
  | some i => do
    let host ← parseHost (authority.drop (i + 1))
    let userinfo := authority.take i
    if validUserinfo userinfo = false then .error (.new (lit "net/url: invalid userinfo"))
    else if ':'.toUInt8 ∉ userinfo then
      let userinfo ← unescape userinfo .userPassword
      pure (some (user userinfo), host)
    else
      let (username, password, _) := cut userinfo ':'.toUInt8
      let username ← unescape username .userPassword
      let password ← unescape password .userPassword
      pure (some (userPassword username password), host)

/-! ## `Parse` -/

/-- `*url.URL`, every field `Parse` sets. -/
structure URL where
  Scheme : GoString
  Opaque : GoString
  User : Option Userinfo
  Host : GoString
  Path : GoString
  RawPath : GoString
  OmitHost : Bool
  ForceQuery : Bool
  RawQuery : GoString
  Fragment : GoString
  RawFragment : GoString
  deriving DecidableEq, Repr, Inhabited

/-- `u.setPath(p)`: the unescaped path, and the text as written when escaping the
path again would not give it back. -/
def URL.setPath (u : URL) (p : GoString) : Except GoError URL :=
  (unescape p .path).map fun path =>
    { u with Path := path, RawPath := if p = escape path .path then [] else p }

/-- `u.setFragment(f)`. -/
def URL.setFragment (u : URL) (f : GoString) : Except GoError URL :=
  (unescape f .fragment).map fun frag =>
    { u with Fragment := frag, RawFragment := if f = escape frag .fragment then [] else f }

/-- The text after `//` cut before its first `/`: the authority, and the path. -/
def splitAuthority (authority : GoString) : GoString × GoString :=
  match index authority '/'.toUInt8 with
  | some i => (authority.take i, authority.drop i)
  | none => (authority, [])

/-- After the scheme and the query are cut off: an authority (`//` then up to the
next `/`) and a path, or a path alone. -/
def parseAuthorityAndPath (url : URL) (rest : GoString) : Except GoError URL :=
  if (url.Scheme ≠ [] ∨ hasPrefix rest (lit "///") = false) ∧ hasPrefix rest (lit "//") then
    let (authority, rest) := splitAuthority (rest.drop 2)
    match parseAuthority authority with
    | .error err => .error err
    | .ok (user, host) => { url with User := user, Host := host }.setPath rest
  else
    let url :=
      if url.Scheme ≠ [] ∧ hasPrefix rest (lit "/") then { url with OmitHost := true } else url
    url.setPath rest

/-- The query cut of `parse`: a lone `?` at the very end sets `ForceQuery`,
otherwise everything after the first `?` is the raw query. -/
def cutQuery (url : URL) (rest : GoString) : URL × GoString :=
  if hasSuffix rest (lit "?") ∧ count rest '?'.toUInt8 = 1 then
    ({ url with ForceQuery := true }, rest.dropLast)
  else
    let (rest, rawQuery, _) := cut rest '?'.toUInt8
    ({ url with RawQuery := rawQuery }, rest)

/-- `parse(rawURL, false)`, what `Parse` runs on the text before `#`. -/
def parseNoFragment (rawURL : GoString) : Except GoError URL :=
  if stringContainsCTLByte rawURL then
    .error (.new (lit "net/url: invalid control character in URL"))
  else if rawURL = lit "*" then .ok { (default : URL) with Path := lit "*" }
  else
    match getScheme rawURL with
    | .error err => .error err
    | .ok (scheme, rest) =>
      let (url, rest) := cutQuery { (default : URL) with Scheme := toLower scheme } rest
      if hasPrefix rest (lit "/") = false then
        if url.Scheme ≠ [] then .ok { url with Opaque := rest }
        else if ':'.toUInt8 ∈ (cut rest '/'.toUInt8).1 then
          .error (.new (lit "first path segment in URL cannot contain colon"))
        else parseAuthorityAndPath url rest
      else parseAuthorityAndPath url rest

/-- `url.Parse(rawURL)`. -/
def parse (rawURL : GoString) : Except GoError URL :=
  let (u, frag, _) := cut rawURL '#'.toUInt8
  match parseNoFragment u with
  | .error err => .error (.url (lit "parse") u err)
  | .ok url =>
    if frag = [] then .ok url
    else match url.setFragment frag with
      | .error err => .error (.url (lit "parse") rawURL err)
      | .ok url => .ok url

/-! ## The query -/

/-- `url.Values`, kept as the pairs `parseQuery` appends in order: a key's values
in `Values` are the values of its pairs here, in the same order. -/
abbrev Values := List (GoString × GoString)

/-- `v.Get(key)`: the first value of `key`, or the empty string. -/
def Values.get (v : Values) (key : GoString) : GoString :=
  match v.find? (·.1 = key) with
  | some (_, value) => value
  | none => []

/-- `url.QueryUnescape(s)`. -/
def queryUnescape (s : GoString) : Except GoError GoString := unescape s .queryComponent

/-- One pass of the loop of `parseQuery`, on one `&`-separated piece. A piece
with `;` sets the error; an empty piece is skipped; otherwise the key and the
value (split at the first `=`) are unescaped, and the first failure is kept. -/
def parseQueryPiece (acc : Values × Option GoError) (key : GoString) : Values × Option GoError :=
  let (m, err) := acc
  if ';'.toUInt8 ∈ key then (m, some (.new (lit "invalid semicolon separator in query")))
  else if key = [] then (m, err)
  else
    let (key, value, _) := cut key '='.toUInt8
    match queryUnescape key with
    | .error err1 => (m, if err = none then some err1 else err)
    | .ok key =>
      match queryUnescape value with
      | .error err1 => (m, if err = none then some err1 else err)
      | .ok value => (m ++ [(key, value)], err)

/-- `ParseQuery(query)`. Go's loop cuts one piece at a time at `&` until nothing is
left; the pieces it visits are those of `strings.Split(query, "&")`, less the
trailing empty one, which the loop would skip anyway. -/
def parseQuery (query : GoString) : Values × Option GoError :=
  (split query '&'.toUInt8).foldl parseQueryPiece ([], none)

/-- `u.Query()`, which drops `ParseQuery`'s error. -/
def URL.query (u : URL) : Values := (parseQuery u.RawQuery).1

/-! ## `Parse` on strings of a known shape -/

/-- A scheme of letters is read up to its `:`. -/
theorem getSchemeFrom_letters (rawURL : GoString) {sch : GoString}
    (h : ∀ c ∈ sch,
      ('a'.toUInt8 ≤ c ∧ c ≤ 'z'.toUInt8) ∨ ('A'.toUInt8 ≤ c ∧ c ≤ 'Z'.toUInt8))
    (rest : GoString) :
    ∀ i, 0 < i + sch.length →
      getSchemeFrom rawURL i (sch ++ ':'.toUInt8 :: rest) =
        .ok (rawURL.take (i + sch.length), rest) := by
  induction sch with
  | nil =>
    intro i hi
    have hi0 : i ≠ 0 := by simpa using hi.ne'
    simp +decide [getSchemeFrom, hi0]
  | cons c sch ih =>
    intro i _
    rw [List.cons_append, getSchemeFrom, if_pos (h c (List.mem_cons_self _ _)),
      ih (fun x hx => h x (List.mem_cons_of_mem _ hx)) (i + 1) (by omega)]
    simp [Nat.add_assoc, Nat.add_comm 1]

theorem getScheme_letters {sch : GoString}
    (h : ∀ c ∈ sch,
      ('a'.toUInt8 ≤ c ∧ c ≤ 'z'.toUInt8) ∨ ('A'.toUInt8 ≤ c ∧ c ≤ 'Z'.toUInt8))
    (hne : sch ≠ []) (rest : GoString) :
    getScheme (sch ++ ':'.toUInt8 :: rest) = .ok (sch, rest) := by
  rw [getScheme, getSchemeFrom_letters _ h rest 0 (by simpa [List.length_pos] using hne)]
  simp

/-- A string none of whose bytes is a control byte passes the check. -/
theorem stringContainsCTLByte_eq_false {s : GoString}
    (h : ∀ c ∈ s, ¬c < ' '.toUInt8 ∧ c ≠ 127) :
    stringContainsCTLByte s = false :=
  List.any_eq_false.mpr fun c hc => by simpa [not_or] using h c hc

/-- A query that is not a lone `?` at the end is cut at its `?`. -/
theorem cutQuery_of_mem (url : URL) {pre q : GoString} (hpre : '?'.toUInt8 ∉ pre)
    (hq : '?'.toUInt8 ∉ q) (hne : q ≠ []) :
    cutQuery url (pre ++ '?'.toUInt8 :: q) = ({ url with RawQuery := q }, pre) := by
  obtain ⟨q', y, rfl⟩ := (List.eq_nil_or_concat q).resolve_left hne
  have hy : y ≠ '?'.toUInt8 := fun he => hq (by simp [he])
  have hs : hasSuffix (pre ++ '?'.toUInt8 :: (q' ++ [y])) (lit "?") = false := by
    simp [hasSuffix, List.isSuffixOf, lit, List.isPrefixOf, Ne.symm hy]
  simp [cutQuery, hs, cut_append_cons _ hpre]

/-- A name with a port is its own host. -/
theorem parseHost_name {h port : GoString}
    (hh : ∀ c ∈ h, shouldEscape c .host = false ∧ c ≠ '['.toUInt8)
    (hp : ∀ c ∈ port, isDigit c = true) :
    parseHost (h ++ ':'.toUInt8 :: port) = .ok (h ++ ':'.toUInt8 :: port) := by
  have hpre : hasPrefix (h ++ ':'.toUInt8 :: port) (lit "[") = false := by
    cases h with
    | nil => rfl
    | cons c h => simp [hasPrefix, lit, List.isPrefixOf, Ne.symm (hh c (List.mem_cons_self _ _)).2]
  have hcolon : ':'.toUInt8 ∉ port := fun hm => absurd (hp _ hm) (by decide)
  have hport : validOptionalPort (':'.toUInt8 :: port) = true := by
    simp [validOptionalPort, List.all_eq_true.mpr hp]
  have hlit : ∀ c ∈ h ++ ':'.toUInt8 :: port, shouldEscape c .host = false := by
    intro c hc
    simp only [List.mem_append, List.mem_cons] at hc
    rcases hc with hc | rfl | hc
    · exact (hh c hc).1
    · decide
    · exact shouldEscape_of_isAlnum (isDigit_isAlnum (hp c hc)) _
  simp [parseHost, hpre, lastIndex_append_cons h hcolon, hport, unescape_literal hlit]

/-- A bracketed IPv6 literal without a zone, with a port, is its own host. -/
theorem parseHost_ipv6 {a port : GoString}
    (ha : ∀ c ∈ a, shouldEscape c .host = false ∧ c ≠ ']'.toUInt8)
    (hp : ∀ c ∈ port, isDigit c = true) :
    parseHost ('['.toUInt8 :: a ++ ']'.toUInt8 :: ':'.toUInt8 :: port) =
      .ok ('['.toUInt8 :: a ++ ']'.toUInt8 :: ':'.toUInt8 :: port) := by
  have hbr : ']'.toUInt8 ∉ ':'.toUInt8 :: port := by
    simp only [List.mem_cons, not_or]
    exact ⟨by decide, fun hm => absurd (hp _ hm) (by decide)⟩
  have hport : validOptionalPort (':'.toUInt8 :: port) = true := by
    simp [validOptionalPort, List.all_eq_true.mpr hp]
  have hzone : indexOf ('['.toUInt8 :: a) (lit "%25") = none := by
    refine @indexOf_eq_none ('['.toUInt8 :: a) '%'.toUInt8 (lit "25") ?_
    simp only [List.mem_cons, not_or]
    exact ⟨by decide, fun hm => absurd (ha _ hm).1 (by simp)⟩
  have hlit : ∀ c ∈ '['.toUInt8 :: a ++ ']'.toUInt8 :: ':'.toUInt8 :: port,
      shouldEscape c .host = false := by
    intro c hc
    simp only [List.cons_append, List.mem_cons, List.mem_append] at hc
    rcases hc with rfl | hc | rfl | rfl | hc
    · decide
    · exact (ha c hc).1
    · decide
    · decide
    · exact shouldEscape_of_isAlnum (isDigit_isAlnum (hp c hc)) _
  have hpre :
      hasPrefix ('['.toUInt8 :: a ++ ']'.toUInt8 :: ':'.toUInt8 :: port) (lit "[") = true := by
    simp [hasPrefix, lit, List.isPrefixOf]
  have hlast := lastIndex_append_cons ('['.toUInt8 :: a) hbr
  simp only [List.cons_append] at hlast hpre hlit ⊢
  simp [parseHost, hpre, hlast, hport, hzone, unescape_literal hlit]

/-- Every byte of a percent-encoded user name or password is one `validUserinfo`
accepts. -/
theorem userinfoByte_of_pctEncoded {s t : GoString} (h : PctEncoded .userPassword s t) :
    ∀ c ∈ t, userinfoByte c = true := by
  intro c hc
  rcases h.mem hc with hk | rfl | hx
  · exact userinfoByte_of_kept hk
  · decide
  · simp [userinfoByte, ishex_isAlnum hx]

/-- An authority without `@` is a host. -/
theorem parseAuthority_host {hostPort : GoString} (h : '@'.toUInt8 ∉ hostPort) :
    parseAuthority hostPort = (parseHost hostPort).map fun host => (none, host) := by
  simp [parseAuthority, lastIndex_eq_none h]

/-- A user name alone before the `@`. -/
theorem parseAuthority_user {u t hostPort : GoString} (hu : PctEncoded .userPassword u t)
    (h : '@'.toUInt8 ∉ hostPort) :
    parseAuthority (t ++ '@'.toUInt8 :: hostPort) =
      (parseHost hostPort).map fun host => (some (user u), host) := by
  have hvalid : validUserinfo t = true := List.all_eq_true.mpr (userinfoByte_of_pctEncoded hu)
  have hcolon : ':'.toUInt8 ∉ t := hu.not_mem (by decide)
  simp only [parseAuthority, lastIndex_append_cons t h]
  cases hph : parseHost hostPort <;>
    simp [hph, bind, Except.bind, pure, Except.pure, hvalid, hcolon,
      unescape_of_pctEncoded (by decide) hu, Except.map]

/-- A user name and a password, separated by the first `:`, before the `@`. -/
theorem parseAuthority_userPassword {u p tu tp hostPort : GoString}
    (hu : PctEncoded .userPassword u tu) (hp : PctEncoded .userPassword p tp)
    (h : '@'.toUInt8 ∉ hostPort) :
    parseAuthority ((tu ++ ':'.toUInt8 :: tp) ++ '@'.toUInt8 :: hostPort) =
      (parseHost hostPort).map fun host => (some (userPassword u p), host) := by
  have hvalid : validUserinfo (tu ++ ':'.toUInt8 :: tp) = true := by
    refine List.all_eq_true.mpr fun c hc => ?_
    simp only [List.mem_append, List.mem_cons] at hc
    rcases hc with hc | rfl | hc
    · exact userinfoByte_of_pctEncoded hu c hc
    · decide
    · exact userinfoByte_of_pctEncoded hp c hc
  have hcolon : ':'.toUInt8 ∉ tu := hu.not_mem (by decide)
  rw [parseAuthority, lastIndex_append_cons _ h]
  simp only [drop_append_cons_length, take_append_cons_length]
  cases hph : parseHost hostPort <;>
    simp [hph, bind, Except.bind, pure, Except.pure, hvalid, cut_append_cons _ hcolon,
      unescape_of_pctEncoded (by decide) hu, unescape_of_pctEncoded (by decide) hp, Except.map]

/-- A path whose every byte the path keeps is stored as written. -/
theorem URL.setPath_literal (u : URL) {p : GoString}
    (h : ∀ c ∈ p, shouldEscape c .path = false) :
    u.setPath p = .ok { u with Path := p, RawPath := [] } := by
  simp [URL.setPath, unescape_literal h, escape_literal (by decide) h, Except.map]

/-- A query of one parameter, a name the query keeps and a percent-encoded value. -/
theorem parseQuery_single {name t v : GoString}
    (hn : ∀ c ∈ name, shouldEscape c .queryComponent = false) (hne : name ≠ [])
    (hv : PctEncoded .queryComponent v t) :
    parseQuery (name ++ '='.toUInt8 :: t) = ([(name, v)], none) := by
  have hname : ∀ x, shouldEscape x .queryComponent = true → x ∉ name := fun x hx hm => by
    simp [hn x hm] at hx
  have hamp : '&'.toUInt8 ∉ name ++ '='.toUInt8 :: t := by
    simp only [List.mem_append, List.mem_cons, not_or]
    exact ⟨hname _ (by decide), by decide, hv.not_mem (by decide)⟩
  have hsemi : ';'.toUInt8 ∉ name ++ '='.toUInt8 :: t := by
    simp only [List.mem_append, List.mem_cons, not_or]
    exact ⟨hname _ (by decide), by decide, hv.not_mem (by decide)⟩
  have heq : '='.toUInt8 ∉ name := hname '='.toUInt8 (by decide)
  simp [parseQuery, split_of_not_mem hamp, parseQueryPiece, hsemi, hne, cut_append_cons t heq,
    queryUnescape, unescape_literal hn, unescape_of_pctEncoded (by decide) hv]

end Url

end RedisSync
