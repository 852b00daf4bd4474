import SnowflakeSqlApi.Python.Loads

/-!
# `json.loads` of bytes

`loadsBytes` is `json.loads` of a body: the encoding is told from the first bytes, the text is
decoded, lone surrogates let through, and then it is read.  Decoders other than UTF-8 are a
parameter.

`decodeUtf8_utf8` says that decoding inverts encoding, and `loadsBytes_encode` that a body that
`batches._encode` made of an object is read back as the object.
-/

namespace SnowflakeSqlApi

/-! ### Decoding -/

/-- The six bits of a continuation byte. -/
def continuation (b : UInt8) : Option Nat :=
  if 0x80 ≤ b.toNat ∧ b.toNat < 0xC0 then some (b.toNat - 0x80) else none

/-- The code point `n`, no less than `least`: a longer encoding of a smaller one is refused. -/
def charFrom (least n : Nat) (rest : Bytes) : Option (PyChar × Bytes) :=
  if least ≤ n then (charOf n).map (·, rest) else none

/-- The character of two bytes, `a` being the bits of the first. -/
def decodeTwo (a : Nat) : Bytes → Option (PyChar × Bytes)
  | b :: rest => do
    let b ← continuation b
    charFrom 0x80 (a * 64 + b) rest
  | _ => none

/-- The character of three bytes, a surrogate included. -/
def decodeThree (a : Nat) : Bytes → Option (PyChar × Bytes)
  | b :: c :: rest => do
    let b ← continuation b
    let c ← continuation c
    charFrom 0x800 (a * 4096 + b * 64 + c) rest
  | _ => none

/-- The character of four bytes. -/
def decodeFour (a : Nat) : Bytes → Option (PyChar × Bytes)
  | b :: c :: d :: rest => do
    let b ← continuation b
    let c ← continuation c
    let d ← continuation d
    charFrom 0x10000 (a * 262144 + b * 4096 + c * 64 + d) rest
  | _ => none

/-- The character at the start of some bytes, and the bytes after it. -/
def decodeChar : Bytes → Option (PyChar × Bytes)
  | [] => none
  | a :: rest =>
    if a.toNat < 0x80 then charFrom 0 a.toNat rest
    else if 0xC2 ≤ a.toNat ∧ a.toNat < 0xE0 then decodeTwo (a.toNat - 0xC0) rest
    else if 0xE0 ≤ a.toNat ∧ a.toNat < 0xF0 then decodeThree (a.toNat - 0xE0) rest
    else if 0xF0 ≤ a.toNat ∧ a.toNat < 0xF5 then decodeFour (a.toNat - 0xF0) rest
    else none

/-- The characters of some bytes, no more than `n`. -/
def decodeChars : Nat → Bytes → Option PyStr
  | _, [] => some []
  | 0, _ :: _ => none
  | n + 1, b :: bs => do
    let (c, rest) ← decodeChar (b :: bs)
    let cs ← decodeChars n rest
    pure (c :: cs)

/-- `b.decode("utf-8", "surrogatepass")`; `none` is `UnicodeDecodeError`. -/
def decodeUtf8 (b : Bytes) : Option PyStr := decodeChars b.length b

theorem charOf_val (c : PyChar) : charOf c.val = some c := dif_pos c.isLt

theorem charFrom_val {least : Nat} {c : PyChar} (h : least ≤ c.val) (rest : Bytes) :
    charFrom least c.val rest = some (c, rest) := by
  rw [charFrom, if_pos h, charOf_val]
  rfl

theorem toNat_toUInt8 {n : Nat} (h : n < 256) : n.toUInt8.toNat = n := by
  rw [Nat.toUInt8, UInt8.toNat_ofNat', Nat.mod_eq_of_lt h]

theorem continuation_low (n : Nat) : continuation (0x80 + n % 64).toUInt8 = some (n % 64) := by
  have hlt := Nat.mod_lt n (show 0 < 64 by decide)
  rw [continuation, toNat_toUInt8 (by omega), if_pos (by omega), Nat.add_sub_cancel_left]

section Lengths

variable {c : PyChar} (rest : Bytes)

theorem decodeTwo_eq (h : 0x80 ≤ c.val) :
    decodeTwo (c.val / 64) ((0x80 + c.val % 64).toUInt8 :: rest) = some (c, rest) := by
  have hval : c.val / 64 * 64 + c.val % 64 = c.val := by omega
  rw [decodeTwo, continuation_low, Option.bind_eq_bind, Option.bind_some, hval]
  exact charFrom_val h rest

theorem decodeThree_eq (h : 0x800 ≤ c.val) :
    decodeThree (c.val / 4096)
      ((0x80 + c.val / 64 % 64).toUInt8 :: (0x80 + c.val % 64).toUInt8 :: rest) =
      some (c, rest) := by
  have hval : c.val / 4096 * 4096 + c.val / 64 % 64 * 64 + c.val % 64 = c.val := by omega
  rw [decodeThree, continuation_low, continuation_low, Option.bind_eq_bind, Option.bind_some,
    Option.bind_some, hval]
  exact charFrom_val h rest

theorem decodeFour_eq (h : 0x10000 ≤ c.val) :
    decodeFour (c.val / 262144) ((0x80 + c.val / 4096 % 64).toUInt8 ::
      (0x80 + c.val / 64 % 64).toUInt8 :: (0x80 + c.val % 64).toUInt8 :: rest) =
      some (c, rest) := by
  have hval : c.val / 262144 * 262144 + c.val / 4096 % 64 * 4096 + c.val / 64 % 64 * 64 +
      c.val % 64 = c.val := by omega
  rw [decodeFour, continuation_low, continuation_low, continuation_low, Option.bind_eq_bind,
    Option.bind_some, Option.bind_some, Option.bind_some, hval]
  exact charFrom_val h rest

end Lengths

/-- **An encoded character is decoded**, whatever comes after it. -/
theorem decodeChar_utf8Char {c : PyChar} {b : Bytes} (h : utf8Char c = some b) (rest : Bytes) :
    decodeChar (b ++ rest) = some (c, rest) := by
  have hc := c.isLt
  rw [utf8Char] at h
  by_cases hone : c.val < 0x80
  · rw [if_pos hone] at h
    cases h
    rw [List.singleton_append, decodeChar, toNat_toUInt8 (by omega), if_pos hone]
    exact charFrom_val (Nat.zero_le _) rest
  rw [if_neg hone] at h
  by_cases htwo : c.val < 0x800
  · rw [if_pos htwo] at h
    cases h
    rw [List.cons_append, List.singleton_append, decodeChar, toNat_toUInt8 (by omega),
      if_neg (by omega), if_pos (by omega), Nat.add_sub_cancel_left]
    exact decodeTwo_eq rest (by omega)
  rw [if_neg htwo] at h
  by_cases hsurrogate : 0xD800 ≤ c.val ∧ c.val < 0xE000
  · rw [if_pos hsurrogate] at h
    cases h
  rw [if_neg hsurrogate] at h
  by_cases hthree : c.val < 0x10000
  · rw [if_pos hthree] at h
    cases h
    rw [List.cons_append, List.cons_append, List.singleton_append, decodeChar,
      toNat_toUInt8 (by omega), if_neg (by omega), if_neg (by omega), if_pos (by omega),
      Nat.add_sub_cancel_left]
    exact decodeThree_eq rest (by omega)
  · rw [if_neg hthree] at h
    cases h
    rw [List.cons_append, List.cons_append, List.cons_append, List.singleton_append, decodeChar,
      toNat_toUInt8 (by omega), if_neg (by omega), if_neg (by omega), if_neg (by omega),
      if_pos (by omega), Nat.add_sub_cancel_left]
    exact decodeFour_eq rest (by omega)

theorem decodeChars_utf8 {s : PyStr} {b : Bytes} (h : utf8 s = some b) {n : Nat}
    (hn : b.length ≤ n) : decodeChars n b = some s := by
  induction s generalizing b n with
  | nil =>
    cases h
    rw [decodeChars]
  | cons c s ih =>
    rw [utf8] at h
    obtain ⟨first, hfirst, h⟩ := Option.bind_eq_some_iff.mp h
    obtain ⟨rest, hrest, h⟩ := Option.bind_eq_some_iff.mp h
    cases h
    have hread := decodeChar_utf8Char hfirst rest
    cases first with
    | nil =>
      rw [utf8Char] at hfirst
      split_ifs at hfirst <;> cases hfirst
    | cons a first =>
      rw [List.length_append, List.length_cons] at hn
      obtain ⟨m, rfl⟩ : ∃ m, n = m + 1 := ⟨n - 1, by omega⟩
      show decodeChars (m + 1) (a :: (first ++ rest)) = _
      rw [decodeChars]
      show (decodeChar (a :: first ++ rest) >>= _) = _
      rw [hread, Option.bind_eq_bind, Option.bind_some]
      dsimp only
      rw [ih hrest (by omega)]
      rfl

/-- **Decoding inverts encoding.** -/
theorem decodeUtf8_utf8 {s : PyStr} {b : Bytes} (h : utf8 s = some b) : decodeUtf8 b = some s :=
  decodeChars_utf8 h le_rfl

/-! ### The encoding of a body -/

inductive Encoding
  | utf8
  | utf8Sig
  | utf16
  | utf16be
  | utf16le
  | utf32
  | utf32be
  | utf32le
  deriving DecidableEq

/-- `json.detect_encoding`. -/
def detectEncoding (b : Bytes) : Encoding :=
  if [0x00, 0x00, 0xFE, 0xFF] <+: b ∨ [0xFF, 0xFE, 0x00, 0x00] <+: b then .utf32
  else if [0xFE, 0xFF] <+: b ∨ [0xFF, 0xFE] <+: b then .utf16
  else if [0xEF, 0xBB, 0xBF] <+: b then .utf8Sig
  else
    match b with
    | a :: b :: c :: d :: _ =>
      if a = 0 then if b ≠ 0 then .utf16be else .utf32be
      else if b = 0 then if c ≠ 0 ∨ d ≠ 0 then .utf16le else .utf32le
      else .utf8
    | [a, b] => if a = 0 then .utf16be else if b = 0 then .utf16le else .utf8
    | _ => .utf8

section Body

variable (codec : Encoding → Bytes → Option PyStr) (float : PyStr → PyFloat)

/-- `b.decode(detect_encoding(b), "surrogatepass")`. -/
def decodeBody (b : Bytes) : Option PyStr :=
  match detectEncoding b with
  | .utf8 => decodeUtf8 b
  | encoding => codec encoding b

/-- `json.loads` on bytes. -/
def loadsBytes (b : Bytes) : Option Json := do
  let text ← decodeBody codec b
  loads float text

variable {codec float}

theorem detectEncoding_brace {b : UInt8} (hb : b ≠ 0) (rest : Bytes) :
    detectEncoding (123 :: b :: rest) = .utf8 := by
  have hbegins : ∀ (x : UInt8) (xs : Bytes), x ≠ 123 → ¬ x :: xs <+: 123 :: b :: rest := by
    intro x xs hx hprefix
    exact hx (List.cons_prefix_cons.mp hprefix).1
  have hutf32 : ¬ ([0x00, 0x00, 0xFE, 0xFF] <+: 123 :: b :: rest ∨
      [0xFF, 0xFE, 0x00, 0x00] <+: 123 :: b :: rest) :=
    not_or.mpr ⟨hbegins _ _ (by decide), hbegins _ _ (by decide)⟩
  have hutf16 : ¬ ([0xFE, 0xFF] <+: 123 :: b :: rest ∨ [0xFF, 0xFE] <+: 123 :: b :: rest) :=
    not_or.mpr ⟨hbegins _ _ (by decide), hbegins _ _ (by decide)⟩
  have hsig : ¬ [0xEF, 0xBB, 0xBF] <+: 123 :: b :: rest := hbegins _ _ (by decide)
  have hzero : (123 : UInt8) ≠ 0 := by decide
  unfold detectEncoding
  rw [if_neg hutf32, if_neg hutf16, if_neg hsig]
  rcases rest with _ | ⟨c, _ | ⟨d, rest⟩⟩
  · exact (if_neg hzero).trans (if_neg hb)
  · rfl
  · exact (if_neg hzero).trans (if_neg hb)

/-- What the body of an object begins with. -/
theorem encode_obj_begins {kvs : Dict} {b : Bytes} (h : encode (.obj kvs) = .ok b) :
    ∃ a rest, a ≠ 0 ∧ b = 123 :: a :: rest := by
  obtain ⟨parts, hparts, rfl⟩ := encode_obj_iff.mp h
  cases hparts with
  | nil => exact ⟨125, [], by decide, rfl⟩
  | @cons kv part kvs parts hpart _ =>
    obtain ⟨k, v, hk, -, rfl⟩ := hpart
    obtain ⟨text, hk⟩ : ∃ text, utf8 (ch '"' :: text) = some k :=
      ⟨_, encode_str_eq_ok.mp hk⟩
    rw [utf8] at hk
    obtain ⟨first, hfirst, hk⟩ := Option.bind_eq_some_iff.mp hk
    obtain ⟨rest, -, hk⟩ := Option.bind_eq_some_iff.mp hk
    have hquote : utf8Char (ch '"') = some [34] := by decide
    rw [hquote] at hfirst
    cases hfirst
    cases hk
    rw [intercalate_cons]
    exact ⟨34, _, by decide, rfl⟩

/-- **An encoded object is read back.** -/
theorem loadsBytes_encode {kvs : Dict} {b : Bytes} (hload : Loadable float false (.obj kvs))
    (h : encode (.obj kvs) = .ok b) : loadsBytes codec float b = some (.obj kvs) := by
  obtain ⟨a, rest, ha, hbegins⟩ := encode_obj_begins h
  obtain ⟨text, htext, hutf8⟩ := encode_eq_ok.mp h
  have hdecode : decodeBody codec b = some text := by
    rw [decodeBody, hbegins, detectEncoding_brace ha, ← hbegins]
    exact decodeUtf8_utf8 hutf8
  rw [loadsBytes, hdecode]
  exact loads_dumps DumpsOptions.spaced_compact hload htext

end Body

end SnowflakeSqlApi
