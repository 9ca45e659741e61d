import GemmaWorker.Python.Json

/-! `json.loads` of bytes: the encoding it takes them for, and their decoding with `surrogatepass`. -/

namespace GemmaWorker.Python

abbrev PyBytes := List UInt8

section Decoders

def push (n : ℕ) (s : Option PyStr) : Option PyStr :=
  if h : n < 0x110000 then s.map (⟨n, h⟩ :: ·) else none

def isTail (b : UInt8) : Bool := 0x80 ≤ b && b < 0xC0

def tailBits (b : UInt8) : ℕ := b.toNat % 0x40

/-- A surrogate of three bytes passes, an overlong form does not. -/
def decodeUtf8 : PyBytes → Option PyStr
  | [] => some []
  | a :: rest =>
    if a < 0x80 then push a.toNat (decodeUtf8 rest)
    else if a < 0xC2 then none
    else if a < 0xE0 then
      match rest with
      | b :: rest =>
        if isTail b then push (a.toNat % 0x20 * 0x40 + tailBits b) (decodeUtf8 rest) else none
      | _ => none
    else if a < 0xF0 then
      match rest with
      | b :: c :: rest =>
        let n := (a.toNat % 0x10 * 0x40 + tailBits b) * 0x40 + tailBits c
        if isTail b && isTail c && decide (0x800 ≤ n) then push n (decodeUtf8 rest) else none
      | _ => none
    else if a < 0xF5 then
      match rest with
      | b :: c :: d :: rest =>
        let n := ((a.toNat % 8 * 0x40 + tailBits b) * 0x40 + tailBits c) * 0x40 + tailBits d
        if isTail b && isTail c && isTail d && decide (0x10000 ≤ n) then push n (decodeUtf8 rest) else none
      | _ => none
    else none

def pairUnits (bigEndian : Bool) : PyBytes → Option Units
  | [] => some []
  | [_] => none
  | a :: b :: rest =>
    let n := if bigEndian then a.toNat * 0x100 + b.toNat else b.toNat * 0x100 + a.toNat
    (pairUnits bigEndian rest).map ((code n, true) :: ·)

/-- A high surrogate before a low one makes one character with it; any other passes. -/
def decodeUtf16 (bigEndian : Bool) (bytes : PyBytes) : Option PyStr :=
  (pairUnits bigEndian bytes).map joinSurrogates

def decodeUtf32 (bigEndian : Bool) : PyBytes → Option PyStr
  | [] => some []
  | a :: b :: c :: d :: rest =>
    let n := if bigEndian then ((a.toNat * 0x100 + b.toNat) * 0x100 + c.toNat) * 0x100 + d.toNat
      else ((d.toNat * 0x100 + c.toNat) * 0x100 + b.toNat) * 0x100 + a.toNat
    push n (decodeUtf32 bigEndian rest)
  | _ => none

end Decoders

section Loads

inductive Encoding
  | utf8
  | utf8Sig
  | utf16
  | utf16be
  | utf16le
  | utf32
  | utf32be
  | utf32le
deriving DecidableEq

/-- Without a byte order mark the zeros among the first four bytes tell. -/
def detectByZeros : PyBytes → Encoding
  | a :: b :: c :: d :: _ =>
    if a = 0 then if b = 0 then .utf32be else .utf16be
    else if b = 0 then if c = 0 ∧ d = 0 then .utf32le else .utf16le
    else .utf8
  | [a, b] => if a = 0 then .utf16be else if b = 0 then .utf16le else .utf8
  | _ => .utf8

def detectEncoding (bytes : PyBytes) : Encoding :=
  if [0x00, 0x00, 0xFE, 0xFF].isPrefixOf bytes || [0xFF, 0xFE, 0x00, 0x00].isPrefixOf bytes then .utf32
  else if [0xFE, 0xFF].isPrefixOf bytes || [0xFF, 0xFE].isPrefixOf bytes then .utf16
  else if [0xEF, 0xBB, 0xBF].isPrefixOf bytes then .utf8Sig
  else detectByZeros bytes

/-- The codecs without a byte order take it from the mark. -/
def decode : Encoding → PyBytes → Option PyStr
  | .utf8, bytes => decodeUtf8 bytes
  | .utf8Sig, bytes => decodeUtf8 (if [0xEF, 0xBB, 0xBF].isPrefixOf bytes then bytes.drop 3 else bytes)
  | .utf16be, bytes => decodeUtf16 true bytes
  | .utf16le, bytes => decodeUtf16 false bytes
  | .utf16, bytes =>
    if [0xFE, 0xFF].isPrefixOf bytes then decodeUtf16 true (bytes.drop 2)
    else decodeUtf16 false (if [0xFF, 0xFE].isPrefixOf bytes then bytes.drop 2 else bytes)
  | .utf32be, bytes => decodeUtf32 true bytes
  | .utf32le, bytes => decodeUtf32 false bytes
  | .utf32, bytes =>
    if [0x00, 0x00, 0xFE, 0xFF].isPrefixOf bytes then decodeUtf32 true (bytes.drop 4)
    else decodeUtf32 false (if [0xFF, 0xFE, 0x00, 0x00].isPrefixOf bytes then bytes.drop 4 else bytes)

/-- `json.loads(b)`. A `UnicodeDecodeError` is a `ValueError`. -/
def jsonLoadsBytes [Interpreter] (bytes : PyBytes) : Except PyError Value :=
  match decode (detectEncoding bytes) bytes with
  | some s => jsonLoads s
  | none => .error .valueError

end Loads

section Ascii

def asciiBytes (s : PyStr) : PyBytes :=
  s.map (fun c => UInt8.ofNat c.val)

lemma asciiByte_toNat {c : CodePoint} (hc : c.val < 128) : (UInt8.ofNat c.val).toNat = c.val := by
  rw [UInt8.toNat_ofNat']
  exact Nat.mod_eq_of_lt (by omega)

lemma asciiByte_lt {c : CodePoint} (hc : c.val < 128) : UInt8.ofNat c.val < 0x80 := by
  rw [UInt8.lt_iff_toNat_lt, asciiByte_toNat hc]
  exact hc

lemma decodeUtf8_ascii {s : PyStr} (h : isAscii s = true) : decodeUtf8 (asciiBytes s) = some s := by
  induction s with
  | nil => rfl
  | cons c s ih =>
    obtain ⟨hc, hs⟩ : c.val < 128 ∧ isAscii s = true := by simpa [isAscii] using h
    have hpush : push c.val (decodeUtf8 (asciiBytes s)) = some (c :: s) := by
      rw [ih hs, push, dif_pos c.isLt]
      rfl
    rw [asciiBytes, List.map_cons, decodeUtf8.eq_def]
    simp only [if_pos (asciiByte_lt hc), asciiByte_toNat hc]
    exact hpush

/-- ASCII text without the zero character carries no mark, and no zero tells of wide characters. -/
lemma detectEncoding_ascii {s : PyStr} (h : isAscii s = true) (hz : ∀ c ∈ s, c.val ≠ 0) :
    detectEncoding (asciiBytes s) = .utf8 := by
  have hbytes : ∀ a ∈ asciiBytes s, a ≠ 0 ∧ a < 0x80 := by
    intro a ha
    obtain ⟨c, hc, rfl⟩ := List.mem_map.mp ha
    have hlt : c.val < 128 := by simpa using List.all_eq_true.mp h c hc
    refine ⟨fun hzero => hz c hc ?_, asciiByte_lt hlt⟩
    rw [← asciiByte_toNat hlt, hzero]
    rfl
  generalize asciiBytes s = bytes at hbytes
  have hmark (m : UInt8) (ms : PyBytes) (hm : m = 0 ∨ ¬ m < 0x80) : (m :: ms).isPrefixOf bytes = false := by
    cases bytes with
    | nil => rfl
    | cons a rest =>
      obtain ⟨hzero, hlt⟩ := hbytes a (by simp)
      have hne : m ≠ a := by
        rintro rfl
        exact hm.elim hzero fun h => h hlt
      simp [List.isPrefixOf, hne]
  have hzeros : detectByZeros bytes = .utf8 := by
    rw [detectByZeros.eq_def]
    split
    · rename_i a b c d rest
      rw [if_neg (hbytes a (by simp)).1, if_neg (hbytes b (by simp)).1]
    · rename_i a b
      rw [if_neg (hbytes a (by simp)).1, if_neg (hbytes b (by simp)).1]
    · rfl
  rw [detectEncoding, hmark 0x00 _ (by decide), hmark 0xFF _ (by decide), hmark 0xFE _ (by decide),
    hmark 0xFF _ (by decide), hmark 0xEF _ (by decide), hzeros]
  rfl

theorem jsonLoadsBytes_ascii [Interpreter] {s : PyStr} (h : isAscii s = true) (hz : ∀ c ∈ s, c.val ≠ 0) :
    jsonLoadsBytes (asciiBytes s) = jsonLoads s := by
  rw [jsonLoadsBytes, detectEncoding_ascii h hz]
  simp only [decode, decodeUtf8_ascii h]

end Ascii

end GemmaWorker.Python
