import Mathlib.Data.List.Basic

/-
  JsonText — a machine that reads JSON, character by character

  Two machines in a row. The lexer is inside a string, inside a word (a literal or a
  number), or between tokens. The parser keeps a stack of what is open. Each moves by
  one step, so reading a text is a fold, and reading a text after another goes on
  where the first one left off.

  A string is read as UTF-16 code units, as its escapes are written; the units become
  characters where the string ends. A lone surrogate has none, and a string with one is
  left undecoded: who has no use for it can skip it. An object is the list of its members
  as they stand in the text, and one with an undecoded key is undecoded as a whole.
-/

namespace JsonText

inductive Value where
  | null
  | bool (b : Bool)
  | number (text : String)
  | string (s : String)
  | undecoded
  | array (elements : List Value)
  | object (members : List (String × Value))

inductive Token where
  | openBrace
  | closeBrace
  | openBracket
  | closeBracket
  | colon
  | comma
  | scalar (v : Value)

/-! ## Strings -/

def isHighSurrogate (n : Nat) : Bool := 0xD800 ≤ n && n ≤ 0xDBFF

def isLowSurrogate (n : Nat) : Bool := 0xDC00 ≤ n && n ≤ 0xDFFF

def unitChar (n : Nat) : Option Char :=
  if isHighSurrogate n || isLowSurrogate n then none else some (Char.ofNat n)

/-- The characters of a string's units: a pair of surrogates is one. -/
def decodeUnits : List Nat → Option (List Char)
  | [] => some []
  | [n] => (unitChar n).map ([·])
  | n :: m :: rest =>
    if isHighSurrogate n && isLowSurrogate m then
      (decodeUnits rest).map (Char.ofNat (0x10000 + (n - 0xD800) * 0x400 + (m - 0xDC00)) :: ·)
    else (unitChar n).bind (fun c => (decodeUnits (m :: rest)).map (c :: ·))

/-- The string of the units, where they have characters. -/
def ofUnits (units : List Nat) : Value :=
  match decodeUnits units with
  | some s => .string (String.ofList s)
  | none => .undecoded

def hexDigit (c : Char) : Option Nat :=
  if '0' ≤ c ∧ c ≤ '9' then some (c.toNat - '0'.toNat)
  else if 'a' ≤ c ∧ c ≤ 'f' then some (c.toNat - 'a'.toNat + 10)
  else if 'A' ≤ c ∧ c ≤ 'F' then some (c.toNat - 'A'.toNat + 10)
  else none

/-- The unit of a backslash and one character, `\u` apart. -/
def escapeUnit (c : Char) : Option Nat :=
  if c = '"' ∨ c = '\\' ∨ c = '/' then some c.toNat
  else if c = 'b' then some 8
  else if c = 'f' then some 12
  else if c = 'n' then some 10
  else if c = 'r' then some 13
  else if c = 't' then some 9
  else none

/-- A character that stands for itself in a string. -/
def isUnescaped (c : Char) : Bool := c != '"' && c != '\\' && 0x20 ≤ c.toNat

/-! ## Words -/

/-- The rest after at least one digit. -/
def afterDigits (l : List Char) : Option (List Char) :=
  if (l.takeWhile Char.isDigit).isEmpty then none else some (l.dropWhile Char.isDigit)

def isExponent : List Char → Bool
  | [] => true
  | c :: rest =>
    (c == 'e' || c == 'E') &&
      afterDigits (match rest with
        | '+' :: rest | '-' :: rest => rest
        | rest => rest) == some []

def isFraction : List Char → Bool
  | '.' :: rest => (afterDigits rest).any isExponent
  | l => isExponent l

def isNumber (l : List Char) : Bool :=
  match (match l with
    | '-' :: rest => rest
    | l => l) with
  | '0' :: rest => isFraction rest
  | l => (afterDigits l).any isFraction

def isWordChar (c : Char) : Bool := c.isAlphanum || c == '+' || c == '-' || c == '.'

def wordValue (word : List Char) : Option Value :=
  if word = ['n', 'u', 'l', 'l'] then some .null
  else if word = ['t', 'r', 'u', 'e'] then some (.bool true)
  else if word = ['f', 'a', 'l', 's', 'e'] then some (.bool false)
  else if isNumber word then some (.number (String.ofList word))
  else none

/-! ## The lexer -/

inductive Lexeme where
  | between
  | string (units : List Nat)
  | escape (units : List Nat)
  | hex (units digits : List Nat)
  | word (letters : List Char)

/-- What a character begins where no token is open. -/
def openLexeme (c : Char) : Option (Lexeme × List Token) :=
  if c = ' ' ∨ c = '\t' ∨ c = '\n' ∨ c = '\r' then some (.between, [])
  else if c = '"' then some (.string [], [])
  else if c = '\x7b' then some (.between, [.openBrace])
  else if c = '\x7d' then some (.between, [.closeBrace])
  else if c = '[' then some (.between, [.openBracket])
  else if c = ']' then some (.between, [.closeBracket])
  else if c = ':' then some (.between, [.colon])
  else if c = ',' then some (.between, [.comma])
  else if isWordChar c then some (.word [c], [])
  else none

def lexStep : Lexeme → Char → Option (Lexeme × List Token)
  | .between, c => openLexeme c
  | .string units, c =>
    if c = '"' then some (.between, [.scalar (ofUnits units)])
    else if c = '\\' then some (.escape units, [])
    else if c.toNat < 0x20 then none
    else some (.string (units ++ [c.toNat]), [])
  | .escape units, c =>
    if c = 'u' then some (.hex units [], [])
    else (escapeUnit c).map (fun n => (.string (units ++ [n]), []))
  | .hex units digits, c => (hexDigit c).map (fun d =>
    if digits.length < 3 then (.hex units (digits ++ [d]), [])
    else (.string (units ++ [(digits ++ [d]).foldl (fun n d => n * 16 + d) 0]), []))
  | .word letters, c =>
    if isWordChar c then some (.word (letters ++ [c]), [])
    else (wordValue letters).bind (fun v =>
      (openLexeme c).map (fun (l, ts) => (l, .scalar v :: ts)))

def lastTokens : Lexeme → Option (List Token)
  | .between => some []
  | .word letters => (wordValue letters).map (fun v => [.scalar v])
  | _ => none

/-! ## The parser -/

/-- An array or an object that is open: what it holds so far, and the key whose value
is being read. Of an object with an undecoded key nothing is held. -/
inductive Frame where
  | array (done : List Value)
  | object (done : List (String × Value)) (key : String)
  | skipped

inductive State where
  | value (stack : List Frame)
  | firstElement (stack : List Frame)
  | firstKey (stack : List Frame)
  | key (stack : List Frame) (done : List (String × Value))
  | colon (stack : List Frame) (done : List (String × Value)) (key : String)
  | skippedKey (stack : List Frame)
  | skippedColon (stack : List Frame)
  | after (stack : List Frame) (v : Value)

def valueStep (stack : List Frame) : Token → Option State
  | .scalar v => some (.after stack v)
  | .openBracket => some (.firstElement stack)
  | .openBrace => some (.firstKey stack)
  | _ => none

def keyStep (stack : List Frame) (done : List (String × Value)) : Token → Option State
  | .scalar (.string key) => some (.colon stack done key)
  | .scalar .undecoded => some (.skippedColon stack)
  | _ => none

def skippedKeyStep (stack : List Frame) : Token → Option State
  | .scalar (.string _) | .scalar .undecoded => some (.skippedColon stack)
  | _ => none

def afterStep (v : Value) : List Frame → Token → Option State
  | .array done :: stack, .comma => some (.value (.array (done ++ [v]) :: stack))
  | .array done :: stack, .closeBracket => some (.after stack (.array (done ++ [v])))
  | .object done key :: stack, .comma => some (.key stack (done ++ [(key, v)]))
  | .object done key :: stack, .closeBrace => some (.after stack (.object (done ++ [(key, v)])))
  | .skipped :: stack, .comma => some (.skippedKey stack)
  | .skipped :: stack, .closeBrace => some (.after stack .undecoded)
  | _, _ => none

def step : State → Token → Option State
  | .value stack, t => valueStep stack t
  | .firstElement stack, .closeBracket => some (.after stack (.array []))
  | .firstElement stack, t => valueStep (.array [] :: stack) t
  | .firstKey stack, .closeBrace => some (.after stack (.object []))
  | .firstKey stack, t => keyStep stack [] t
  | .key stack done, t => keyStep stack done t
  | .colon stack done key, .colon => some (.value (.object done key :: stack))
  | .colon _ _ _, _ => none
  | .skippedKey stack, t => skippedKeyStep stack t
  | .skippedColon stack, .colon => some (.value (.skipped :: stack))
  | .skippedColon _, _ => none
  | .after stack v, t => afterStep v stack t

/-! ## Both -/

abbrev Reader := Lexeme × State

def read (m : Reader) (c : Char) : Option Reader :=
  (lexStep m.1 c).bind (fun (l, ts) => (ts.foldlM step m.2).map (fun s => (l, s)))

def run (m : Reader) (text : List Char) : Option Reader := text.foldlM read m

/-- The value that was read, where nothing is open. -/
def result (m : Reader) : Option Value :=
  (lastTokens m.1).bind (fun ts => (ts.foldlM step m.2).bind (fun s =>
    match s with
    | .after [] v => some v
    | _ => none))

def parse (text : String) : Option Value := (run (.between, .value []) text.toList).bind result

theorem run_append (m : Reader) (a b : List Char) : run m (a ++ b) = (run m a).bind (run · b) :=
  List.foldlM_append

theorem run_cons (m : Reader) (c : Char) (l : List Char) :
    run m (c :: l) = (read m c).bind (run · l) := rfl

/-! ## What is read into a string -/

theorem isUnescaped_iff {c : Char} : isUnescaped c = true ↔ c ≠ '"' ∧ c ≠ '\\' ∧ ¬ c.toNat < 0x20 := by
  simp [isUnescaped, and_assoc]

/-- A plain character is its own unit. -/
theorem read_plain {units : List Nat} {s : State} {c : Char} (h : isUnescaped c = true) :
    read (.string units, s) c = some (.string (units ++ [c.toNat]), s) := by
  obtain ⟨hquote, hback, hcontrol⟩ := isUnescaped_iff.mp h
  simp [read, lexStep, hquote, hback, hcontrol]

theorem run_plain {s : State} {l : List Char} (h : ∀ c ∈ l, isUnescaped c = true) : ∀ units,
    run (.string units, s) l = some (.string (units ++ l.map Char.toNat), s) := by
  induction l with
  | nil =>
    intro units
    rw [List.map_nil, List.append_nil]
    rfl
  | cons c l ih =>
    intro units
    have hrest : ∀ d ∈ l, isUnescaped d = true := fun d hd => h d (List.mem_cons_of_mem c hd)
    rw [run_cons, read_plain (h c (List.mem_cons_self ..)), Option.bind_some, ih hrest,
      List.append_assoc]
    rfl

theorem unitChar_toNat (c : Char) : unitChar c.toNat = some c := by
  have hvalid := c.valid
  have hnot : (isHighSurrogate c.toNat || isLowSurrogate c.toNat) = false := by
    simp only [isHighSurrogate, isLowSurrogate, Bool.or_eq_false_iff, Bool.and_eq_false_iff,
      decide_eq_false_iff_not]
    simp only [UInt32.isValidChar, Nat.isValidChar] at hvalid
    change (¬ 0xD800 ≤ c.val.toNat ∨ ¬ c.val.toNat ≤ 0xDBFF) ∧
      (¬ 0xDC00 ≤ c.val.toNat ∨ ¬ c.val.toNat ≤ 0xDFFF)
    omega
  rw [unitChar, hnot, Char.ofNat_toNat]
  rfl

theorem not_isHighSurrogate (c : Char) : isHighSurrogate c.toNat = false := by
  by_contra h
  have hc := unitChar_toNat c
  rw [unitChar, if_pos (by simp [h])] at hc
  cases hc

/-- The units of plain characters are their characters. -/
theorem decodeUnits_toNat : ∀ l : List Char, decodeUnits (l.map Char.toNat) = some l
  | [] => rfl
  | [c] => by
    change (unitChar c.toNat).map ([·]) = some [c]
    rw [unitChar_toNat]
    rfl
  | c :: d :: rest => by
    have ih := decodeUnits_toNat (d :: rest)
    simp only [List.map_cons] at ih ⊢
    rw [decodeUnits, not_isHighSurrogate, unitChar_toNat, ih]
    rfl

theorem ofUnits_toNat (l : List Char) : ofUnits (l.map Char.toNat) = .string (String.ofList l) := by
  rw [ofUnits, decodeUnits_toNat]

example : ofUnits [0xD800] = .undecoded := rfl

/-- A quote closes the string. -/
theorem read_quote (units : List Nat) (s : State) : read (.string units, s) '"' =
    (step s (.scalar (ofUnits units))).map (fun s' => (.between, s')) := by
  simp [read, lexStep]

/-- A plain text and a quote are the string of the text. -/
theorem run_string {s s' : State} {l rest : List Char} (h : ∀ c ∈ l, isUnescaped c = true)
    (hstep : step s (.scalar (.string (String.ofList l))) = some s') :
    run (.string [], s) (l ++ '"' :: rest) = run (.between, s') rest := by
  rw [run_append, run_plain h, Option.bind_some, List.nil_append, run_cons, read_quote,
    ofUnits_toNat, hstep]
  rfl

/-- A character that is a token. -/
theorem run_token {c : Char} {t : Token} {s s' : State} {rest : List Char}
    (h : openLexeme c = some (.between, [t])) (hstep : step s t = some s') :
    run (.between, s) (c :: rest) = run (.between, s') rest := by
  have hread : read (.between, s) c = some (.between, s') := by simp [read, lexStep, h, hstep]
  rw [run_cons, hread, Option.bind_some]

theorem run_quoted {s s' : State} {l rest : List Char} (h : ∀ c ∈ l, isUnescaped c = true)
    (hstep : step s (.scalar (.string (String.ofList l))) = some s') :
    run (.between, s) ('"' :: (l ++ '"' :: rest)) = run (.between, s') rest := by
  have hread : read (.between, s) '"' = some (.string [], s) := rfl
  rw [run_cons, hread, Option.bind_some, run_string h hstep]

/-- Units never make more characters than there are of them. -/
theorem decodeUnits_length : ∀ {units : List Nat} {s : List Char}, decodeUnits units = some s →
    s.length ≤ units.length
  | [], s, h => by
    cases h
    exact Nat.le_refl 0
  | [n], s, h => by
    obtain ⟨c, -, rfl⟩ := Option.map_eq_some_iff.mp h
    exact Nat.le_refl 1
  | n :: m :: rest, s, h => by
    rw [decodeUnits] at h
    split at h
    · obtain ⟨t, ht, rfl⟩ := Option.map_eq_some_iff.mp h
      have ih := decodeUnits_length ht
      simp only [List.length_cons]
      omega
    · obtain ⟨c, -, h⟩ := Option.bind_eq_some_iff.mp h
      obtain ⟨t, ht, rfl⟩ := Option.map_eq_some_iff.mp h
      have ih := decodeUnits_length ht
      simp only [List.length_cons] at ih ⊢
      omega

/-- What a lexeme is after `text` was read into a string that is still open: fewer units
than characters, unless all of them were plain. -/
def Inside (text : List Char) : Lexeme → Prop
  | .string units => units.length ≤ text.length ∧
      (units.length = text.length → ∀ c ∈ text, isUnescaped c = true)
  | .escape units => units.length < text.length
  | .hex units _ => units.length + 1 < text.length
  | _ => False

/-- The string a text was read into: as long as it only where the text is plain. -/
structure ReadAs (text : List Char) (str : String) : Prop where
  le : str.length ≤ text.length
  plain : str.length = text.length → ∀ c ∈ text, isUnescaped c = true

/-- The value a text in quotes was read into. -/
def Closes (text : List Char) (v : Value) : Prop := ∀ str, v = .string str → ReadAs text str

section
variable {text : List Char} {c : Char} {l l' : Lexeme} {ts : List Token} {s : State}

theorem inside_escape {units : List Nat} (h : Inside text (.escape units))
    (hl : lexStep (.escape units) c = some (l', ts)) : ts = [] ∧ Inside (text ++ [c]) l' := by
  change units.length < text.length at h
  simp only [lexStep] at hl
  split at hl
  · cases hl
    refine ⟨rfl, ?_⟩
    rw [Inside, List.length_append, List.length_singleton]
    omega
  · obtain ⟨n, -, he⟩ := Option.map_eq_some_iff.mp hl
    cases he
    simp only [Inside, List.length_append, List.length_singleton]
    exact ⟨trivial, by omega, fun heq => by omega⟩

theorem inside_hex {units digits : List Nat} (h : Inside text (.hex units digits))
    (hl : lexStep (.hex units digits) c = some (l', ts)) : ts = [] ∧ Inside (text ++ [c]) l' := by
  change units.length + 1 < text.length at h
  obtain ⟨d, -, he⟩ := Option.map_eq_some_iff.mp hl
  split at he
  · cases he
    refine ⟨rfl, ?_⟩
    rw [Inside, List.length_append, List.length_singleton]
    omega
  · cases he
    simp only [Inside, List.length_append, List.length_singleton]
    exact ⟨trivial, by omega, fun heq => by omega⟩

theorem inside_string {units : List Nat} (h : Inside text (.string units))
    (hl : lexStep (.string units) c = some (l', ts)) : (ts = [] ∧ Inside (text ++ [c]) l') ∨
      (c = '"' ∧ l' = .between ∧ ∃ v, ts = [.scalar v] ∧ Closes text v) := by
  obtain ⟨hle, hplain⟩ := h
  simp only [lexStep] at hl
  split at hl
  · next hquote =>
    right
    cases hl
    refine ⟨hquote, rfl, ofUnits units, rfl, ?_⟩
    intro str hv
    unfold ofUnits at hv
    split at hv
    · next s hdecode =>
      cases hv
      have hstr := decodeUnits_length hdecode
      refine ⟨?_, fun heq => hplain ?_⟩
      · rw [String.length_ofList]
        omega
      · rw [String.length_ofList] at heq
        omega
    · cases hv
  · next hquote =>
    left
    split at hl
    · cases hl
      refine ⟨rfl, ?_⟩
      rw [Inside, List.length_append, List.length_singleton]
      omega
    · next hback =>
      split at hl
      · cases hl
      · next hcontrol =>
        cases hl
        have hc : isUnescaped c = true := isUnescaped_iff.mpr ⟨hquote, hback, hcontrol⟩
        simp only [Inside, List.length_append, List.length_singleton, List.forall_mem_append,
          List.forall_mem_singleton]
        exact ⟨trivial, by omega, fun heq => ⟨hplain (by omega), hc⟩⟩

/-- One character more is in the string, or it closes the string. -/
theorem inside_step {m : Reader} (h : Inside text l) (hread : read (l, s) c = some m) :
    (∃ l', m = (l', s) ∧ Inside (text ++ [c]) l') ∨
    ∃ v s', c = '"' ∧ m = (.between, s') ∧ Closes text v ∧ step s (.scalar v) = some s' := by
  obtain ⟨⟨l', ts⟩, hl, hts⟩ := Option.bind_eq_some_iff.mp hread
  obtain ⟨s', hs, rfl⟩ := Option.map_eq_some_iff.mp hts
  have hstep : (ts = [] ∧ Inside (text ++ [c]) l') ∨
      (c = '"' ∧ l' = .between ∧ ∃ v, ts = [.scalar v] ∧ Closes text v) := by
    cases l with
    | between => cases h
    | word letters => cases h
    | escape units => exact Or.inl (inside_escape h hl)
    | hex units digits => exact Or.inl (inside_hex h hl)
    | string units => exact inside_string h hl
  rcases hstep with ⟨rfl, hin⟩ | ⟨hquote, rfl, v, rfl, hv⟩
  · cases hs
    exact Or.inl ⟨l', rfl, hin⟩
  · refine Or.inr ⟨v, s', hquote, rfl, hv, ?_⟩
    simpa using hs

/-- A text read into a string stays in it, or closes it at one of its quotes. -/
theorem inside_run {more : List Char} {m : Reader} (h : Inside text l)
    (hrun : run (l, s) more = some m) :
    (∃ l', m = (l', s) ∧ Inside (text ++ more) l') ∨
    ∃ a rest v s', more = a ++ '"' :: rest ∧ run (.between, s') rest = some m ∧
      Closes (text ++ a) v ∧ step s (.scalar v) = some s' := by
  induction more generalizing text l with
  | nil =>
    cases hrun
    rw [List.append_nil]
    exact Or.inl ⟨l, rfl, h⟩
  | cons c more ih =>
    obtain ⟨m₁, hread, hrest⟩ := Option.bind_eq_some_iff.mp (run_cons (l, s) c more ▸ hrun)
    rcases inside_step h hread with ⟨l', rfl, hin⟩ | ⟨v, s', rfl, rfl, hv, hstep⟩
    · rcases ih hin hrest with ⟨l'', hm, hin'⟩ | ⟨a, rest, v, s', rfl, hr, hv, hstep⟩
      · rw [List.append_assoc, List.singleton_append] at hin'
        exact Or.inl ⟨l'', hm, hin'⟩
      · rw [List.append_assoc, List.singleton_append] at hv
        exact Or.inr ⟨c :: a, rest, v, s', rfl, hr, hv, hstep⟩
    · refine Or.inr ⟨[], more, v, s', rfl, hrest, ?_, hstep⟩
      rw [List.append_nil]
      exact hv

end

/-! ## The outermost object only grows -/

/-- What is known later extends what was known; what was lost stays lost. -/
def Grows {β : Type} (known later : Option (List β)) : Prop :=
  ∀ l', later = some l' → ∃ l, known = some l ∧ l <+: l'

section
variable {β : Type} {a b c : Option (List β)}

theorem Grows.refl : Grows a a := fun l h => ⟨l, h, List.prefix_rfl⟩

theorem Grows.trans (h : Grows a b) (h' : Grows b c) : Grows a c := by
  intro l hl
  obtain ⟨m, hm, hml⟩ := h' l hl
  obtain ⟨n, hn, hnm⟩ := h m hm
  exact ⟨n, hn, hnm.trans hml⟩

theorem grows_lost : Grows a none := fun _ h => by cases h

theorem grows_nil : Grows (some []) a := fun _ _ => ⟨[], rfl, List.nil_prefix⟩

end

/-- The members a value has, as an object. -/
def membersOf : Value → Option (List (String × Value))
  | .object members => some members
  | .undecoded => none
  | _ => some []

def Frame.members : Frame → Option (List (String × Value))
  | .object done _ => some done
  | .array _ => some []
  | .skipped => none

/-- The members of a frame with the value that was read for it. -/
def Frame.membersWith (v : Value) : Frame → Option (List (String × Value))
  | .object done key => some (done ++ [(key, v)])
  | .array _ => some []
  | .skipped => none

/-- The members of the outermost frame, `top` where nothing is open. -/
def bottom (top : Option (List (String × Value))) : List Frame → Option (List (String × Value))
  | [] => top
  | f :: stack => bottom f.members stack

/-- The members the outermost object has for certain. -/
def outermost : State → Option (List (String × Value))
  | .value stack | .firstElement stack | .firstKey stack => bottom (some []) stack
  | .key stack done | .colon stack done _ => bottom (some done) stack
  | .skippedKey stack | .skippedColon stack => bottom none stack
  | .after [] v => membersOf v
  | .after (f :: stack) v => bottom (f.membersWith v) stack

theorem bottom_mono {top top' : Option (List (String × Value))} (h : Grows top top') (stack : List Frame) :
    Grows (bottom top stack) (bottom top' stack) := by
  cases stack with
  | nil => exact h
  | cons f stack => exact .refl

theorem members_grow (f : Frame) (v : Value) : Grows f.members (f.membersWith v) := by
  cases f with
  | array done => exact .refl
  | skipped => exact .refl
  | object done key =>
    intro l hl
    cases hl
    exact ⟨done, rfl, List.prefix_append done _⟩

/-- A value that is read keeps what is below it, and is there itself where nothing is. -/
theorem bottom_le_after (stack : List Frame) (v : Value) :
    Grows (bottom (membersOf v) stack) (outermost (.after stack v)) := by
  cases stack with
  | nil => exact .refl
  | cons f stack => exact bottom_mono (members_grow f v) stack

theorem valueStep_outermost {stack : List Frame} {t : Token} {s : State}
    (h : valueStep stack t = some s) : Grows (bottom (some []) stack) (outermost s) := by
  unfold valueStep at h
  split at h
  · next v =>
    cases h
    exact (bottom_mono grows_nil stack).trans (bottom_le_after stack v)
  · cases h
    exact .refl
  · cases h
    exact .refl
  · cases h

theorem keyStep_outermost {stack : List Frame} {done : List (String × Value)} {t : Token}
    {s : State} (h : keyStep stack done t = some s) : Grows (bottom (some done) stack) (outermost s) := by
  unfold keyStep at h
  split at h
  · cases h
    exact .refl
  · cases h
    exact bottom_mono grows_lost stack
  · cases h

theorem skippedKeyStep_outermost {stack : List Frame} {t : Token} {s : State}
    (h : skippedKeyStep stack t = some s) : Grows (bottom none stack) (outermost s) := by
  unfold skippedKeyStep at h
  split at h
  · cases h
    exact .refl
  · cases h
    exact .refl
  · cases h

theorem afterStep_outermost {stack : List Frame} {v : Value} {t : Token} {s : State}
    (h : afterStep v stack t = some s) : Grows (outermost (.after stack v)) (outermost s) := by
  unfold afterStep at h
  split at h
  · cases h
    exact .refl
  · next done stack =>
    cases h
    exact bottom_le_after stack (.array (done ++ [v]))
  · cases h
    exact .refl
  · next done key stack =>
    cases h
    exact bottom_le_after stack (.object (done ++ [(key, v)]))
  · cases h
    exact .refl
  · next stack =>
    cases h
    exact bottom_le_after stack .undecoded
  · cases h

theorem step_outermost {s s' : State} {t : Token} (h : step s t = some s') :
    Grows (outermost s) (outermost s') := by
  unfold step at h
  split at h
  · exact valueStep_outermost h
  · next stack =>
    cases h
    exact bottom_le_after stack (.array [])
  · have hle := valueStep_outermost h
    exact hle
  · next stack =>
    cases h
    exact bottom_le_after stack (.object [])
  · exact keyStep_outermost h
  · exact keyStep_outermost h
  · cases h
    exact .refl
  · cases h
  · exact skippedKeyStep_outermost h
  · cases h
    exact .refl
  · cases h
  · exact afterStep_outermost h

/-- What grows at every step of a fold grows over the whole of it. -/
theorem foldlM_grows {σ α β : Type} {f : σ → α → Option σ} {g : σ → Option (List β)}
    (hstep : ∀ {s a s'}, f s a = some s' → Grows (g s) (g s')) {l : List α} :
    ∀ {s s' : σ}, l.foldlM f s = some s' → Grows (g s) (g s') := by
  induction l with
  | nil =>
    intro s s' h
    cases h
    exact .refl
  | cons a l ih =>
    intro s s' h
    obtain ⟨s₁, hs, hrest⟩ := Option.bind_eq_some_iff.mp h
    exact (hstep hs).trans (ih hrest)

theorem read_outermost {m m' : Reader} {c : Char} (h : read m c = some m') :
    Grows (outermost m.2) (outermost m'.2) := by
  obtain ⟨⟨l, ts⟩, -, hts⟩ := Option.bind_eq_some_iff.mp h
  obtain ⟨s, hs, rfl⟩ := Option.map_eq_some_iff.mp hts
  exact foldlM_grows step_outermost hs

theorem run_outermost {text : List Char} {m m' : Reader} (h : run m text = some m') :
    Grows (outermost m.2) (outermost m'.2) :=
  foldlM_grows (g := fun m => outermost m.2) read_outermost h

/-- The object that is read begins with the members that were there. -/
theorem result_outermost {m : Reader} {members : List (String × Value)}
    (h : result m = some (.object members)) : Grows (outermost m.2) (some members) := by
  obtain ⟨ts, -, h⟩ := Option.bind_eq_some_iff.mp h
  obtain ⟨s, hs, h⟩ := Option.bind_eq_some_iff.mp h
  split at h
  · cases h
    exact foldlM_grows step_outermost hs
  · cases h

end JsonText
