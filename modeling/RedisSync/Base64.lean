import RedisSync.Basic

/-!
# The fingerprint: `generateSHA`

`generateSHA` (source lines 275-279) feeds the payload to SHA3-256 and prints the
thirty-two byte digest with `base64.URLEncoding`, the URL-safe alphabet with `=`
padding. The digest itself is `Hooks.sum256`; the encoder is modelled here, group
by group as `Encoding.Encode` writes it.

What the rest of the development needs from it is one fact: a fingerprint is
never the empty string (`generateSHA_ne_nil`), since it is forty-four bytes long
(`generateSHA_length`). The poller uses the empty `LastSHA` to mean "nothing seen
yet", and change detection is only sound because no digest can look like that.

The encoding also loses nothing. `decodeString`, base64's decoding of padded
groups of four, undoes it (`decodeString_encodeToString`), so two payloads get
the same fingerprint exactly when their digests agree (`generateSHA_eq_iff`):
comparing fingerprints, as the cron job does, is comparing digests.
-/

namespace RedisSync

/-! ## `base64.URLEncoding` -/

/-- The URL-safe alphabet
`ABCDEFGHIJKLMNOPQRSTUVWXYZabcdefghijklmnopqrstuvwxyz0123456789-_`, at a six-bit
index. -/
def encodeURL (v : Nat) : UInt8 :=
  if v < 26 then (65 + v).toUInt8
  else if v < 52 then (71 + v).toUInt8
  else if v < 62 then (v - 4).toUInt8
  else if v = 62 then 45 else 95

/-- `base64.StdPadding`, the byte `=`. -/
def padChar : UInt8 := 61

/-- `base64.URLEncoding.EncodeToString`: each group of three bytes becomes four
symbols; a last group of one or two bytes is padded to four. -/
def encodeToString : List UInt8 → GoString
  | a :: b :: c :: rest =>
    let val := a.toNat <<< 16 ||| b.toNat <<< 8 ||| c.toNat
    [encodeURL (val >>> 18 &&& 0x3F), encodeURL (val >>> 12 &&& 0x3F),
      encodeURL (val >>> 6 &&& 0x3F), encodeURL (val &&& 0x3F)] ++ encodeToString rest
  | [a, b] =>
    let val := a.toNat <<< 16 ||| b.toNat <<< 8
    [encodeURL (val >>> 18 &&& 0x3F), encodeURL (val >>> 12 &&& 0x3F),
      encodeURL (val >>> 6 &&& 0x3F), padChar]
  | [a] =>
    let val := a.toNat <<< 16
    [encodeURL (val >>> 18 &&& 0x3F), encodeURL (val >>> 12 &&& 0x3F), padChar, padChar]
  | [] => []

/-- The length `Encoding.EncodedLen` announces for a padded encoding. -/
theorem length_encodeToString (src : List UInt8) :
    (encodeToString src).length = (src.length + 2) / 3 * 4 := by
  induction src using encodeToString.induct with
  | case1 a b c rest ih => simp only [encodeToString, List.length_append, ih]; simp; omega
  | case2 | case3 | case4 => simp [encodeToString]

/-! ## The fingerprint -/

/-- `rs.generateSHA(data)`. -/
def generateSHA (hk : Hooks) (data : GoString) : GoString :=
  encodeToString (hk.sum256 data).bytes

theorem generateSHA_length (hk : Hooks) (data : GoString) :
    (generateSHA hk data).length = 44 := by
  simp [generateSHA, length_encodeToString, (hk.sum256 data).length_bytes]

/-- No payload has the empty fingerprint, which `LastSHA` uses for "never observed". -/
theorem generateSHA_ne_nil (hk : Hooks) (data : GoString) : generateSHA hk data ≠ [] :=
  fun h => by simpa [h] using generateSHA_length hk data

/-! ## The fingerprint identifies the digest -/

/-- The six-bit value of a symbol of the URL-safe alphabet, the inverse of
`encodeURL`; any other byte reads as 0. -/
def decodeURL (c : UInt8) : Nat :=
  if 65 ≤ c ∧ c ≤ 90 then c.toNat - 65
  else if 97 ≤ c ∧ c ≤ 122 then c.toNat - 71
  else if 48 ≤ c ∧ c ≤ 57 then c.toNat + 4
  else if c = 45 then 62
  else if c = 95 then 63
  else 0

theorem decodeURL_encodeURL : ∀ v : Fin 64, decodeURL (encodeURL v) = v := by decide

/-- No six-bit value is written as the padding byte. -/
theorem encodeURL_ne_padChar : ∀ v : Fin 64, encodeURL v ≠ padChar := by decide

theorem decodeURL_padChar : decodeURL padChar = 0 := by decide

/-- The six bits `encodeToString` takes from bit `k` on. -/
theorem shiftRight_and_mask (n k : Nat) : n >>> k &&& 0x3F = n / Nat.pow 2 k % 64 := by
  rw [Nat.shiftRight_eq_div_pow, show (0x3F : Nat) = 2 ^ 6 - 1 from rfl,
    Nat.and_pow_two_sub_one_eq_mod]
  rfl

/-- The 24-bit value of a group of three bytes. -/
theorem or_group {a b c : Nat} (hb : b < 256) (hc : c < 256) :
    a <<< 16 ||| b <<< 8 ||| c = a * 65536 + b * 256 + c := by
  have s16 : a <<< 16 = 65536 * a := by rw [Nat.shiftLeft_eq, Nat.mul_comm]
  have s8 : b <<< 8 = b * 256 := by rw [Nat.shiftLeft_eq]
  have e1 : 65536 * a + b * 256 = 65536 * a ||| b * 256 :=
    Nat.mul_add_lt_is_or (i := 16) (show b * 256 < 65536 by omega) a
  have e2 : 256 * (256 * a + b) + c = 256 * (256 * a + b) ||| c :=
    Nat.mul_add_lt_is_or (i := 8) hc _
  rw [s16, s8, ← e1, show 65536 * a + b * 256 = 256 * (256 * a + b) by omega, ← e2]
  omega

/-- The 24-bit value four symbols spell. -/
def groupValue (s0 s1 s2 s3 : UInt8) : Nat :=
  decodeURL s0 * 262144 + decodeURL s1 * 4096 + decodeURL s2 * 64 + decodeURL s3

/-- Base64's decoding of padded groups of four: each group gives three bytes, or
fewer when it ends in padding. -/
def decodeString : GoString → List UInt8
  | s0 :: s1 :: s2 :: s3 :: rest =>
    let v := groupValue s0 s1 s2 s3
    if s2 = padChar then [UInt8.ofNat (v / 65536)]
    else if s3 = padChar then [UInt8.ofNat (v / 65536), UInt8.ofNat (v / 256 % 256)]
    else [UInt8.ofNat (v / 65536), UInt8.ofNat (v / 256 % 256), UInt8.ofNat (v % 256)] ++
      decodeString rest
  | _ => []

theorem decodeURL_sixBits (n k : Nat) :
    decodeURL (encodeURL (n >>> k &&& 0x3F)) = n / Nat.pow 2 k % 64 := by
  rw [shiftRight_and_mask]; exact decodeURL_encodeURL ⟨_, Nat.mod_lt _ (by omega)⟩

theorem decodeURL_lowBits (n : Nat) : decodeURL (encodeURL (n &&& 0x3F)) = n % 64 := by
  have h := decodeURL_sixBits n 0
  rwa [show Nat.pow 2 0 = 1 from rfl, Nat.div_one] at h

theorem encodeURL_sixBits_ne (n k : Nat) : encodeURL (n >>> k &&& 0x3F) ≠ padChar := by
  rw [shiftRight_and_mask]; exact encodeURL_ne_padChar ⟨_, Nat.mod_lt _ (by omega)⟩

theorem ofNat_eq_of_toNat {a : UInt8} {x : Nat} (h : x = a.toNat) : UInt8.ofNat x = a :=
  UInt8.toNat.inj (by rw [UInt8.toNat_ofNat_of_lt (h ▸ a.toNat_lt_size), h])

/-- A value below `2^24` is the sum of its four six-bit digits. -/
theorem sixBits_sum {n : Nat} (h : n < 16777216) :
    n / 262144 % 64 * 262144 + n / 4096 % 64 * 4096 + n / 64 % 64 * 64 + n % 64 = n := by
  omega

/-- The four symbols of a value below `2^24` spell it back, with padding in place
of the bits that are zero. -/
theorem groupValue_encode {n : Nat} (h : n < 16777216) :
    groupValue (encodeURL (n >>> 18 &&& 0x3F)) (encodeURL (n >>> 12 &&& 0x3F))
      (encodeURL (n >>> 6 &&& 0x3F)) (encodeURL (n &&& 0x3F)) = n := by
  rw [groupValue, decodeURL_sixBits, decodeURL_sixBits, decodeURL_sixBits, decodeURL_lowBits]
  exact sixBits_sum h

theorem groupValue_encode_pad {n : Nat} (h : n < 16777216) (h64 : n % 64 = 0) :
    groupValue (encodeURL (n >>> 18 &&& 0x3F)) (encodeURL (n >>> 12 &&& 0x3F))
      (encodeURL (n >>> 6 &&& 0x3F)) padChar = n := by
  rw [groupValue, decodeURL_sixBits, decodeURL_sixBits, decodeURL_sixBits, decodeURL_padChar]
  have hs := sixBits_sum h
  rwa [h64] at hs

theorem groupValue_encode_pad2 {n : Nat} (h : n < 16777216) (h64 : n % 4096 = 0) :
    groupValue (encodeURL (n >>> 18 &&& 0x3F)) (encodeURL (n >>> 12 &&& 0x3F))
      padChar padChar = n := by
  rw [groupValue, decodeURL_sixBits, decodeURL_sixBits, decodeURL_padChar]
  have hs := sixBits_sum h
  have hlow : n / 64 % 64 = 0 ∧ n % 64 = 0 := by omega
  rwa [hlow.1, hlow.2] at hs

theorem encodeURL_lowBits_ne (n : Nat) : encodeURL (n &&& 0x3F) ≠ padChar := by
  simpa using encodeURL_sixBits_ne n 0

/-- Decoding undoes `encodeToString`, group by group. -/
theorem decodeString_encodeToString (src : List UInt8) :
    decodeString (encodeToString src) = src := by
  induction src using encodeToString.induct with
  | case1 a b c rest ih =>
    have ha := a.toNat_lt_size; have hb := b.toNat_lt_size; have hc := c.toNat_lt_size
    simp only [UInt8.size] at ha hb hc
    simp only [encodeToString, or_group hb hc, List.cons_append, List.nil_append, decodeString,
      if_neg (encodeURL_sixBits_ne _ _), if_neg (encodeURL_lowBits_ne _),
      groupValue_encode (show a.toNat * 65536 + b.toNat * 256 + c.toNat < 16777216 by omega),
      List.append_eq, ih, List.cons.injEq, and_true]
    exact ⟨ofNat_eq_of_toNat (by omega), ofNat_eq_of_toNat (by omega),
      ofNat_eq_of_toNat (by omega)⟩
  | case2 a b =>
    have ha := a.toNat_lt_size; have hb := b.toNat_lt_size
    simp only [UInt8.size] at ha hb
    have hv := or_group (a := a.toNat) (c := 0) hb (by decide)
    rw [Nat.or_zero, Nat.add_zero] at hv
    simp only [encodeToString, hv, decodeString, if_neg (encodeURL_sixBits_ne _ _), if_true,
      groupValue_encode_pad (show a.toNat * 65536 + b.toNat * 256 < 16777216 by omega) (by omega),
      List.cons.injEq, and_true]
    exact ⟨ofNat_eq_of_toNat (by omega), ofNat_eq_of_toNat (by omega)⟩
  | case3 a =>
    have ha := a.toNat_lt_size
    simp only [UInt8.size] at ha
    have hv : a.toNat <<< 16 = a.toNat * 65536 := by rw [Nat.shiftLeft_eq]
    simp only [encodeToString, hv, decodeString, if_true,
      groupValue_encode_pad2 (show a.toNat * 65536 < 16777216 by omega) (by omega),
      List.cons.injEq, and_true]
    exact ofNat_eq_of_toNat (by omega)
  | case4 => rfl

theorem encodeToString_injective {x y : List UInt8} (h : encodeToString x = encodeToString y) :
    x = y := by
  rw [← decodeString_encodeToString x, h, decodeString_encodeToString]

/-- Two payloads get the same fingerprint exactly when their SHA3-256 digests agree:
printing the digest in base64 loses nothing, so `LastSHA` changes exactly when the
digest does. -/
theorem generateSHA_eq_iff (hk : Hooks) (a b : GoString) :
    generateSHA hk a = generateSHA hk b ↔ (hk.sum256 a).bytes = (hk.sum256 b).bytes :=
  ⟨encodeToString_injective, fun h => by simp only [generateSHA, h]⟩

end RedisSync
