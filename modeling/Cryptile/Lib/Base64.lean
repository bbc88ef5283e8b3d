import Cryptile.Lib.Text

/-
  Base64 — the standard alphabet with padding, and the URL-safe one without

  Three bytes are four characters of six bits; one or two bytes at the end are
  padded. The decoder accepts what the encoder writes and nothing else of the same
  bytes: padding must be there, and the bits it covers must be zero. Without padding
  the last characters are fewer, and the bits that are left over must be zero.
-/

namespace Base64
open Text

/-- The character of six bits. -/
def digit (n : Nat) : Char :=
  if n < 26 then Char.ofNat (65 + n)
  else if n < 52 then Char.ofNat (97 + (n - 26))
  else if n < 62 then Char.ofNat (48 + (n - 52))
  else if n = 62 then '+' else '/'

def digitValue (c : Char) : Option Nat :=
  if 65 ≤ c.toNat && c.toNat ≤ 90 then some (c.toNat - 65)
  else if 97 ≤ c.toNat && c.toNat ≤ 122 then some (c.toNat - 97 + 26)
  else if 48 ≤ c.toNat && c.toNat ≤ 57 then some (c.toNat - 48 + 52)
  else if c = '+' then some 62
  else if c = '/' then some 63
  else none

def encodeList : Bytes → List Char
  | [] => []
  | [a] => [digit (a.toNat / 4), digit (a.toNat % 4 * 16), '=', '=']
  | [a, b] =>
    [digit (a.toNat / 4), digit (a.toNat % 4 * 16 + b.toNat / 16), digit (b.toNat % 16 * 4), '=']
  | a :: b :: c :: rest =>
    digit (a.toNat / 4) :: digit (a.toNat % 4 * 16 + b.toNat / 16) ::
      digit (b.toNat % 16 * 4 + c.toNat / 64) :: digit (c.toNat % 64) :: encodeList rest

/-- One byte from two digits: what the padding covers must be zero. -/
def oneByte (w x : Nat) : Option Bytes :=
  if x % 16 = 0 then some [UInt8.ofNat (w * 4 + x / 16)] else none

def twoBytes (w x y : Nat) : Option Bytes :=
  if y % 4 = 0 then some [UInt8.ofNat (w * 4 + x / 16), UInt8.ofNat (x % 16 * 16 + y / 4)] else none

def threeBytes (w x y z : Nat) : Bytes :=
  [UInt8.ofNat (w * 4 + x / 16), UInt8.ofNat (x % 16 * 16 + y / 4), UInt8.ofNat (y % 4 * 64 + z)]

def decodeList : List Char → Option Bytes
  | [] => some []
  | w :: x :: y :: z :: rest => do
    let w ← digitValue w
    let x ← digitValue x
    if z = '=' && rest.isEmpty then
      if y = '=' then oneByte w x else twoBytes w x (← digitValue y)
    else
      let y ← digitValue y
      let z ← digitValue z
      return threeBytes w x y z ++ (← decodeList rest)
  | _ => none

def encode (b : Bytes) : String := String.ofList (encodeList b)

def decode (s : String) : Option Bytes := decodeList s.toList

example : encode [0x4D, 0x61, 0x6E, 0x4D] = "TWFuTQ==" := by decide

/-! ## Round trip -/

theorem digitValue_digit : ∀ n < 64, digitValue (digit n) = some n := by decide

/-- The characters that separate encoded parts, and the blanks. -/
def isSeparator (c : Char) : Bool := c == '.' || c == '|' || isWhitespace c

/-- A digit is neither padding nor a separator. -/
theorem digit_plain : ∀ n < 64, digit n ≠ '=' ∧ isSeparator (digit n) = false := by decide

theorem ofNat_eq {a : UInt8} {n : Nat} (h : n = a.toNat) : UInt8.ofNat n = a := by
  rw [h, UInt8.ofNat_toNat]

theorem oneByte_eq (a : UInt8) : oneByte (a.toNat / 4) (a.toNat % 4 * 16) = some [a] := by
  have hpad : a.toNat % 4 * 16 % 16 = 0 := by omega
  rw [oneByte, if_pos hpad, ofNat_eq (a := a) (by omega)]

theorem twoBytes_eq (a b : UInt8) :
    twoBytes (a.toNat / 4) (a.toNat % 4 * 16 + b.toNat / 16) (b.toNat % 16 * 4) = some [a, b] := by
  have hb := b.toNat_lt
  have hpad : b.toNat % 16 * 4 % 4 = 0 := by omega
  rw [twoBytes, if_pos hpad, ofNat_eq (a := a) (by omega), ofNat_eq (a := b) (by omega)]

theorem threeBytes_eq (a b c : UInt8) :
    threeBytes (a.toNat / 4) (a.toNat % 4 * 16 + b.toNat / 16) (b.toNat % 16 * 4 + c.toNat / 64)
      (c.toNat % 64) = [a, b, c] := by
  have hb := b.toNat_lt
  have hc := c.toNat_lt
  rw [threeBytes, ofNat_eq (a := a) (by omega), ofNat_eq (a := b) (by omega),
    ofNat_eq (a := c) (by omega)]

theorem decodeList_encodeList : ∀ b : Bytes, decodeList (encodeList b) = some b
  | [] => rfl
  | [a] => by
    have ha := a.toNat_lt
    simp [encodeList, decodeList, digitValue_digit, show a.toNat / 4 < 64 by omega,
      show a.toNat % 4 * 16 < 64 by omega, oneByte_eq]
  | [a, b] => by
    have ha := a.toNat_lt
    have hb := b.toNat_lt
    have hy := (digit_plain (b.toNat % 16 * 4) (by omega)).1
    simp [encodeList, decodeList, digitValue_digit, hy, show a.toNat / 4 < 64 by omega,
      show a.toNat % 4 * 16 + b.toNat / 16 < 64 by omega, show b.toNat % 16 * 4 < 64 by omega,
      twoBytes_eq]
  | a :: b :: c :: rest => by
    have ha := a.toNat_lt
    have hb := b.toNat_lt
    have hc := c.toNat_lt
    have hz := (digit_plain (c.toNat % 64) (by omega)).1
    simp [encodeList, decodeList, digitValue_digit, hz, show a.toNat / 4 < 64 by omega,
      show a.toNat % 4 * 16 + b.toNat / 16 < 64 by omega,
      show b.toNat % 16 * 4 + c.toNat / 64 < 64 by omega, show c.toNat % 64 < 64 by omega,
      threeBytes_eq, decodeList_encodeList rest]

theorem decode_encode (b : Bytes) : decode (encode b) = some b := by
  simp [decode, encode, decodeList_encodeList]

/-- What the encoder writes has no separator in it. -/
theorem encodeList_plain : ∀ b : Bytes, ∀ c ∈ encodeList b, isSeparator c = false
  | [] => by simp [encodeList]
  | [a] => by
    have ha := a.toNat_lt
    have h₁ := (digit_plain (a.toNat / 4) (by omega)).2
    have h₂ := (digit_plain (a.toNat % 4 * 16) (by omega)).2
    have hpad : isSeparator '=' = false := by decide
    simp [encodeList, h₁, h₂, hpad]
  | [a, b] => by
    have ha := a.toNat_lt
    have hb := b.toNat_lt
    have h₁ := (digit_plain (a.toNat / 4) (by omega)).2
    have h₂ := (digit_plain (a.toNat % 4 * 16 + b.toNat / 16) (by omega)).2
    have h₃ := (digit_plain (b.toNat % 16 * 4) (by omega)).2
    have hpad : isSeparator '=' = false := by decide
    simp [encodeList, h₁, h₂, h₃, hpad]
  | a :: b :: c :: rest => by
    have ha := a.toNat_lt
    have hb := b.toNat_lt
    have hc := c.toNat_lt
    have h₁ := (digit_plain (a.toNat / 4) (by omega)).2
    have h₂ := (digit_plain (a.toNat % 4 * 16 + b.toNat / 16) (by omega)).2
    have h₃ := (digit_plain (b.toNat % 16 * 4 + c.toNat / 64) (by omega)).2
    have h₄ := (digit_plain (c.toNat % 64) (by omega)).2
    have ih := encodeList_plain rest
    intro d hd
    simp only [encodeList, List.mem_cons] at hd
    rcases hd with rfl | rfl | rfl | rfl | hd
    · exact h₁
    · exact h₂
    · exact h₃
    · exact h₄
    · exact ih d hd

theorem encode_plain (b : Bytes) : ∀ c ∈ (encode b).toList, isSeparator c = false := by
  simpa [encode] using encodeList_plain b

theorem encode_no_dot (b : Bytes) : '.' ∉ (encode b).toList := fun h => by
  have hsep := encode_plain b '.' h
  contradiction

theorem encode_no_bar (b : Bytes) : '|' ∉ (encode b).toList := fun h => by
  have hsep := encode_plain b '|' h
  contradiction

theorem encode_no_blank (b : Bytes) : ∀ c ∈ (encode b).toList, isWhitespace c = false := by
  intro c h
  have hsep := encode_plain b c h
  simp only [isSeparator, Bool.or_eq_false_iff] at hsep
  exact hsep.2

/-- A text that decodes is of digits and padding. -/
theorem decodeList_digits : ∀ {l : List Char} {b : Bytes}, decodeList l = some b →
    ∀ c ∈ l, c = '=' ∨ (digitValue c).isSome = true
  | [], _, _ => by simp
  | w :: x :: y :: z :: rest, b, h => by
    simp only [decodeList] at h
    obtain ⟨vw, hw, hafter⟩ := Option.bind_eq_some_iff.mp h
    obtain ⟨vx, hx, htail⟩ := Option.bind_eq_some_iff.mp hafter
    by_cases hlast : (decide (z = '=') && rest.isEmpty) = true
    · rw [if_pos hlast] at htail
      simp only [Bool.and_eq_true, decide_eq_true_eq, List.isEmpty_iff] at hlast
      obtain ⟨rfl, rfl⟩ := hlast
      by_cases hpad : y = '='
      · simp [hw, hx, hpad]
      · rw [if_neg hpad] at htail
        obtain ⟨vy, hy, -⟩ := Option.bind_eq_some_iff.mp htail
        simp [hw, hx, hy]
    · rw [if_neg hlast] at htail
      obtain ⟨vy, hy, htail⟩ := Option.bind_eq_some_iff.mp htail
      obtain ⟨vz, hz, htail⟩ := Option.bind_eq_some_iff.mp htail
      obtain ⟨vrest, hrest, -⟩ := Option.bind_eq_some_iff.mp htail
      have ih := decodeList_digits hrest
      intro c hc
      simp only [List.mem_cons] at hc
      rcases hc with rfl | rfl | rfl | rfl | hc
      · simp [hw]
      · simp [hx]
      · simp [hy]
      · simp [hz]
      · exact ih c hc
  | [_], _, h | [_, _], _, h | [_, _, _], _, h => by cases h

theorem decode_no_dot {s : String} {b : Bytes} (h : decode s = some b) : '.' ∉ s.toList := by
  intro hdot
  obtain hpad | hdigit := decodeList_digits h '.' hdot
  · exact absurd hpad (by decide)
  · exact absurd hdigit (by decide)

/-! ## The URL-safe alphabet, without padding -/

/-- The URL-safe alphabet differs in its last two digits. -/
def urlDigit (n : Nat) : Char := if n = 62 then '-' else if n = 63 then '_' else digit n

def urlDigitValue (c : Char) : Option Nat :=
  if c = '-' then some 62
  else if c = '_' then some 63
  else if c = '+' ∨ c = '/' then none
  else digitValue c

def encodeUrlList : Bytes → List Char
  | [] => []
  | [a] => [urlDigit (a.toNat / 4), urlDigit (a.toNat % 4 * 16)]
  | [a, b] =>
    [urlDigit (a.toNat / 4), urlDigit (a.toNat % 4 * 16 + b.toNat / 16),
      urlDigit (b.toNat % 16 * 4)]
  | a :: b :: c :: rest =>
    urlDigit (a.toNat / 4) :: urlDigit (a.toNat % 4 * 16 + b.toNat / 16) ::
      urlDigit (b.toNat % 16 * 4 + c.toNat / 64) :: urlDigit (c.toNat % 64) :: encodeUrlList rest

def decodeUrlList : List Char → Option Bytes
  | [] => some []
  | [w, x] => do oneByte (← urlDigitValue w) (← urlDigitValue x)
  | [w, x, y] => do twoBytes (← urlDigitValue w) (← urlDigitValue x) (← urlDigitValue y)
  | w :: x :: y :: z :: rest => do
    let w ← urlDigitValue w
    let x ← urlDigitValue x
    let y ← urlDigitValue y
    let z ← urlDigitValue z
    return threeBytes w x y z ++ (← decodeUrlList rest)
  | _ => none

def encodeUrl (b : Bytes) : String := String.ofList (encodeUrlList b)

def decodeUrl (s : String) : Option Bytes := decodeUrlList s.toList

/-- A letter, a number, or one of the two marks. -/
def isUrlDigit (c : Char) : Bool := c.isAlphanum || c == '-' || c == '_'

theorem urlDigit_isUrlDigit : ∀ n < 64, isUrlDigit (urlDigit n) = true := by decide

/-- What the URL-safe encoder writes is safe in a URL. -/
theorem encodeUrlList_digits : ∀ b : Bytes, ∀ c ∈ encodeUrlList b, isUrlDigit c = true
  | [] => by simp [encodeUrlList]
  | [a] => by
    have ha := a.toNat_lt
    simp [encodeUrlList, urlDigit_isUrlDigit, show a.toNat / 4 < 64 by omega,
      show a.toNat % 4 * 16 < 64 by omega]
  | [a, b] => by
    have ha := a.toNat_lt
    have hb := b.toNat_lt
    simp [encodeUrlList, urlDigit_isUrlDigit, show a.toNat / 4 < 64 by omega,
      show a.toNat % 4 * 16 + b.toNat / 16 < 64 by omega, show b.toNat % 16 * 4 < 64 by omega]
  | a :: b :: c :: rest => by
    have ha := a.toNat_lt
    have hb := b.toNat_lt
    have hc := c.toNat_lt
    have ih := encodeUrlList_digits rest
    simp only [encodeUrlList, List.forall_mem_cons]
    exact ⟨urlDigit_isUrlDigit _ (by omega), urlDigit_isUrlDigit _ (by omega),
      urlDigit_isUrlDigit _ (by omega), urlDigit_isUrlDigit _ (by omega), ih⟩

theorem encodeUrl_digits (b : Bytes) : ∀ c ∈ (encodeUrl b).toList, isUrlDigit c = true := by
  simpa [encodeUrl] using encodeUrlList_digits b

end Base64
