import GemmaWorker.Python.JsonBytes

/-! `str.encode()`: every text comes back from its bytes, and `json.loads` takes them for what they are. -/

namespace GemmaWorker.Python

section Encoder

def tailByte (n : ℕ) : UInt8 :=
  UInt8.ofNat (0x80 + n % 0x40)

def utf8Char (n : ℕ) : PyBytes :=
  if n < 0x80 then [UInt8.ofNat n]
  else if n < 0x800 then [UInt8.ofNat (0xC0 + n / 0x40), tailByte n]
  else if n < 0x10000 then [UInt8.ofNat (0xE0 + n / 0x1000), tailByte (n / 0x40), tailByte n]
  else [UInt8.ofNat (0xF0 + n / 0x40000), tailByte (n / 0x1000), tailByte (n / 0x40), tailByte n]

/-- The encoder refuses surrogates before it comes to bytes. -/
def utf8Bytes (s : PyStr) : PyBytes :=
  s.flatMap fun c => utf8Char c.val

end Encoder

section RoundTrip

variable {n : ℕ} {rest : PyBytes}

lemma toNat_byte (h : n < 0x100) : (UInt8.ofNat n).toNat = n := by
  rw [UInt8.toNat_ofNat']
  exact Nat.mod_eq_of_lt h

lemma tailByte_toNat (n : ℕ) : (tailByte n).toNat = 0x80 + n % 0x40 :=
  toNat_byte (by omega)

lemma isTail_tailByte (n : ℕ) : isTail (tailByte n) = true := by
  have hbounds : (0x80 : UInt8).toNat = 0x80 ∧ (0xC0 : UInt8).toNat = 0xC0 := by decide
  simp only [isTail, Bool.and_eq_true, decide_eq_true_eq, UInt8.le_iff_toNat_le, UInt8.lt_iff_toNat_lt,
    tailByte_toNat, hbounds]
  omega

lemma tailBits_tailByte (n : ℕ) : tailBits (tailByte n) = n % 0x40 := by
  rw [tailBits, tailByte_toNat]
  omega

lemma byte_lt (h : n < 0x100) (b : UInt8) : UInt8.ofNat n < b ↔ n < b.toNat := by
  rw [UInt8.lt_iff_toNat_lt, toNat_byte h]

/-- The bounds that tell the lead bytes apart. -/
lemma leadBounds : (0x80 : UInt8).toNat = 0x80 ∧ (0xC2 : UInt8).toNat = 0xC2 ∧ (0xE0 : UInt8).toNat = 0xE0 ∧
    (0xF0 : UInt8).toNat = 0xF0 ∧ (0xF5 : UInt8).toNat = 0xF5 := by decide

lemma decodeUtf8_one (h : n < 0x80) : decodeUtf8 (utf8Char n ++ rest) = push n (decodeUtf8 rest) := by
  have hbyte : n < 0x100 := by omega
  rw [utf8Char, if_pos h, List.singleton_append, decodeUtf8.eq_def]
  simp only [byte_lt hbyte, leadBounds, toNat_byte hbyte]
  rw [if_pos h]

lemma decodeUtf8_two (h : ¬ n < 0x80) (h' : n < 0x800) :
    decodeUtf8 (utf8Char n ++ rest) = push n (decodeUtf8 rest) := by
  have hbyte : 0xC0 + n / 0x40 < 0x100 := by omega
  have hbits : (0xC0 + n / 0x40) % 0x20 * 0x40 + n % 0x40 = n := by omega
  rw [utf8Char, if_neg h, if_pos h', List.cons_append, List.singleton_append, decodeUtf8.eq_def]
  simp only [byte_lt hbyte, leadBounds, toNat_byte hbyte, isTail_tailByte, tailBits_tailByte, hbits]
  rw [if_neg (by omega), if_neg (by omega), if_pos (by omega), if_pos trivial]

lemma decodeUtf8_three (h : ¬ n < 0x800) (h' : n < 0x10000) :
    decodeUtf8 (utf8Char n ++ rest) = push n (decodeUtf8 rest) := by
  have hbyte : 0xE0 + n / 0x1000 < 0x100 := by omega
  have hbits : ((0xE0 + n / 0x1000) % 0x10 * 0x40 + n / 0x40 % 0x40) * 0x40 + n % 0x40 = n := by omega
  have hlong : (true && true && decide (0x800 ≤ n)) = true := by simpa using Nat.le_of_not_lt h
  rw [utf8Char, if_neg (by omega), if_neg h, if_pos h', List.cons_append, List.cons_append, List.singleton_append,
    decodeUtf8.eq_def]
  simp only [byte_lt hbyte, leadBounds, toNat_byte hbyte, isTail_tailByte, tailBits_tailByte, hbits]
  rw [if_neg (by omega), if_neg (by omega), if_neg (by omega), if_pos (by omega), if_pos hlong]

lemma decodeUtf8_four (h : ¬ n < 0x10000) (h' : n < 0x110000) :
    decodeUtf8 (utf8Char n ++ rest) = push n (decodeUtf8 rest) := by
  have hbyte : 0xF0 + n / 0x40000 < 0x100 := by omega
  have hbits : (((0xF0 + n / 0x40000) % 8 * 0x40 + n / 0x1000 % 0x40) * 0x40 + n / 0x40 % 0x40) * 0x40 + n % 0x40 =
      n := by omega
  have hlong : (true && true && true && decide (0x10000 ≤ n)) = true := by simpa using Nat.le_of_not_lt h
  rw [utf8Char, if_neg (by omega), if_neg (by omega), if_neg h, List.cons_append, List.cons_append,
    List.cons_append, List.singleton_append, decodeUtf8.eq_def]
  simp only [byte_lt hbyte, leadBounds, toNat_byte hbyte, isTail_tailByte, tailBits_tailByte, hbits]
  rw [if_neg (by omega), if_neg (by omega), if_neg (by omega), if_neg (by omega), if_pos (by omega), if_pos hlong]

lemma decodeUtf8_char (h : n < 0x110000) : decodeUtf8 (utf8Char n ++ rest) = push n (decodeUtf8 rest) := by
  by_cases h1 : n < 0x80
  · exact decodeUtf8_one h1
  by_cases h2 : n < 0x800
  · exact decodeUtf8_two h1 h2
  by_cases h3 : n < 0x10000
  · exact decodeUtf8_three h2 h3
  · exact decodeUtf8_four h3 h

theorem decodeUtf8_bytes (s : PyStr) : decodeUtf8 (utf8Bytes s) = some s := by
  induction s with
  | nil => rfl
  | cons c s ih =>
    rw [utf8Bytes, List.flatMap_cons, decodeUtf8_char c.isLt]
    change push c.val (decodeUtf8 (utf8Bytes s)) = _
    rw [ih, push, dif_pos c.isLt]
    rfl

lemma byte_ne_zero {b : UInt8} (h : n < 0x100) (hn : n ≠ 0) (hb : b = UInt8.ofNat n) : b ≠ 0 := by
  rintro rfl
  rw [← toNat_byte h, ← hb] at hn
  exact hn rfl

lemma utf8Char_ne_zero (hn : n ≠ 0) (h : n < 0x110000) : ∀ b ∈ utf8Char n, b ≠ 0 := by
  have htail (m : ℕ) : tailByte m ≠ 0 := byte_ne_zero (by omega) (by omega : 0x80 + m % 0x40 ≠ 0) rfl
  intro b hb
  rw [utf8Char] at hb
  split_ifs at hb with h1 h2 h3
  · exact byte_ne_zero (by omega) hn (List.mem_singleton.mp hb)
  · rcases List.mem_cons.mp hb with rfl | hb
    · exact byte_ne_zero (by omega) (by omega) rfl
    · exact List.mem_singleton.mp hb ▸ htail n
  · rcases List.mem_cons.mp hb with rfl | hb
    · exact byte_ne_zero (by omega) (by omega) rfl
    · rcases List.mem_cons.mp hb with rfl | hb
      · exact htail _
      · exact List.mem_singleton.mp hb ▸ htail n
  · rcases List.mem_cons.mp hb with rfl | hb
    · exact byte_ne_zero (by omega) (by omega) rfl
    · rcases List.mem_cons.mp hb with rfl | hb
      · exact htail _
      · rcases List.mem_cons.mp hb with rfl | hb
        · exact htail _
        · exact List.mem_singleton.mp hb ▸ htail n

/-- Bytes without a zero that start in ASCII are taken for UTF-8. -/
lemma detectEncoding_head {a : UInt8} (ha : a < 0x80) (hz : ∀ b ∈ a :: rest, b ≠ 0) :
    detectEncoding (a :: rest) = .utf8 := by
  have hmark (m : UInt8) (ms : PyBytes) (hm : m = 0 ∨ ¬ m < 0x80) : (m :: ms).isPrefixOf (a :: rest) = false := by
    have hne : m ≠ a := by
      rintro rfl
      exact hm.elim (hz m (by simp)) fun h => h ha
    simp [List.isPrefixOf, hne]
  have hzeros : detectByZeros (a :: rest) = .utf8 := by
    rw [detectByZeros.eq_def]
    split
    · rename_i x y c d tail heq
      rw [heq] at hz
      rw [if_neg (hz x (by simp)), if_neg (hz y (by simp))]
    · rename_i x y heq
      rw [heq] at hz
      rw [if_neg (hz x (by simp)), if_neg (hz y (by simp))]
    · rfl
  rw [detectEncoding, hmark 0x00 _ (by decide), hmark 0xFF _ (by decide), hmark 0xFE _ (by decide),
    hmark 0xFF _ (by decide), hmark 0xEF _ (by decide), hzeros]
  rfl

/-- `json.loads` of an encoded text reads the text, if it starts in ASCII and holds no zero character. -/
theorem jsonLoadsBytes_utf8 [Interpreter] {c : CodePoint} {s : PyStr} (hc : c.val < 0x80)
    (hz : ∀ d ∈ c :: s, d.val ≠ 0) : jsonLoadsBytes (utf8Bytes (c :: s)) = jsonLoads (c :: s) := by
  have hbytes : utf8Bytes (c :: s) = UInt8.ofNat c.val :: utf8Bytes s := by
    rw [utf8Bytes, List.flatMap_cons, utf8Char, if_pos hc]
    rfl
  have hnone : ∀ b ∈ utf8Bytes (c :: s), b ≠ 0 := by
    intro b hb
    obtain ⟨d, hd, hb⟩ := List.mem_flatMap.mp hb
    exact utf8Char_ne_zero (hz d hd) d.isLt b hb
  have hlead : UInt8.ofNat c.val < 0x80 := (byte_lt (by omega) _).mpr hc
  have hdetect : detectEncoding (utf8Bytes (c :: s)) = .utf8 := by
    rw [hbytes] at hnone ⊢
    exact detectEncoding_head hlead hnone
  rw [jsonLoadsBytes, hdetect]
  simp only [decode, decodeUtf8_bytes]

end RoundTrip

end GemmaWorker.Python
