import Cryptile.Lib.JsonText
import Mathlib.Data.List.TakeWhile

/-
  JsonPrint — JSON texts, written so that they read back

  A layout says what stands between tokens: nothing, or a new line and the
  indentation of the depth. Either way it is blank, so the reader of `JsonText` does
  not see it. `parse_print` is the round trip: a value whose numbers are JSON numbers
  is read back from its text, member by member and in order, in every layout.
-/

namespace JsonText

/-! ## Strings -/

def hexChar (n : Nat) : Char :=
  if n < 10 then Char.ofNat ('0'.toNat + n) else Char.ofNat ('a'.toNat + (n - 10))

/-- A quote, a backslash and the controls below U+0020 are escaped, the rest stands as
it is. -/
def escapeChar (c : Char) : List Char :=
  if c = '"' then ['\\', '"']
  else if c = '\\' then ['\\', '\\']
  else if c.toNat = 8 then ['\\', 'b']
  else if c.toNat = 9 then ['\\', 't']
  else if c.toNat = 10 then ['\\', 'n']
  else if c.toNat = 12 then ['\\', 'f']
  else if c.toNat = 13 then ['\\', 'r']
  else if c.toNat < 0x20 then ['\\', 'u', '0', '0', hexChar (c.toNat / 16), hexChar (c.toNat % 16)]
  else [c]

def quote (s : String) : List Char := '"' :: (s.toList.flatMap escapeChar ++ ['"'])

/-! ## Layouts -/

def isBlank (c : Char) : Bool := c == ' ' || c == '\t' || c == '\n' || c == '\r'

/-- What stands before an element of a depth, and after the colon of a member. -/
structure Layout where
  newline : Nat → List Char
  afterColon : List Char
  blank_newline : ∀ depth, ∀ c ∈ newline depth, isBlank c = true
  blank_afterColon : ∀ c ∈ afterColon, isBlank c = true

def Layout.compact : Layout where
  newline _ := []
  afterColon := []
  blank_newline := by simp
  blank_afterColon := by simp

/-- Two blanks for each depth. -/
def Layout.pretty : Layout where
  newline depth := '\n' :: List.replicate (2 * depth) ' '
  afterColon := [' ']
  blank_newline depth c hc := by
    rcases List.mem_cons.mp hc with rfl | hc
    · rfl
    · rw [List.eq_of_mem_replicate hc]
      rfl
  blank_afterColon c hc := by
    rw [List.mem_singleton.mp hc]
    rfl

/-! ## Values -/

def boolWord (b : Bool) : List Char := if b then ['t', 'r', 'u', 'e'] else ['f', 'a', 'l', 's', 'e']

section
variable (L : Layout)

mutual

def printValue (depth : Nat) : Value → List Char
  | .null => ['n', 'u', 'l', 'l']
  | .bool b => boolWord b
  | .number text => text.toList
  | .string s => quote s
  -- there is no text to write
  | .undecoded => []
  | .array [] => ['[', ']']
  | .array (v :: vs) =>
    '[' :: (L.newline (depth + 1) ++ (printValue (depth + 1) v ++
      (printElements (depth + 1) vs ++ (L.newline depth ++ [']']))))
  | .object [] => ['\x7b', '\x7d']
  | .object (m :: ms) =>
    '\x7b' :: (L.newline (depth + 1) ++ (printMember (depth + 1) m ++
      (printMembers (depth + 1) ms ++ (L.newline depth ++ ['\x7d']))))

def printMember (depth : Nat) : String × Value → List Char
  | (key, v) => quote key ++ ':' :: (L.afterColon ++ printValue depth v)

/-- The elements after the first. -/
def printElements (depth : Nat) : List Value → List Char
  | [] => []
  | v :: vs => ',' :: (L.newline depth ++ (printValue depth v ++ printElements depth vs))

def printMembers (depth : Nat) : List (String × Value) → List Char
  | [] => []
  | m :: ms => ',' :: (L.newline depth ++ (printMember depth m ++ printMembers depth ms))

end

def print (v : Value) : String := String.ofList (printValue L 0 v)

end

/-- Every number of the value is a JSON number, and every string has characters. -/
inductive Printable : Value → Prop
  | null : Printable .null
  | bool (b : Bool) : Printable (.bool b)
  | number {text : String} (h : isNumber text.toList = true) : Printable (.number text)
  | string (s : String) : Printable (.string s)
  | array {vs : List Value} (h : ∀ v ∈ vs, Printable v) : Printable (.array vs)
  | object {ms : List (String × Value)} (h : ∀ m ∈ ms, Printable m.2) : Printable (.object ms)

@[simp] theorem printable_null : Printable .null := .null

@[simp] theorem printable_string (s : String) : Printable (.string s) := .string s

@[simp] theorem printable_array {vs : List Value} : Printable (.array vs) ↔ ∀ v ∈ vs, Printable v :=
  ⟨fun h => by cases h; assumption, .array⟩

@[simp] theorem printable_object {ms : List (String × Value)} :
    Printable (.object ms) ↔ ∀ m ∈ ms, Printable m.2 :=
  ⟨fun h => by cases h; assumption, .object⟩

/-! ## What is read back -/

/-- The value of a text from where the reader is. -/
def reads (m : Reader) (text : List Char) : Option Value := (run m text).bind result

theorem parse_eq_reads (text : String) : parse text = reads (.between, .value []) text.toList := rfl

theorem reads_append (m : Reader) (a b : List Char) :
    reads m (a ++ b) = (run m a).bind (fun m => reads m b) := by
  rw [reads, run_append]
  cases run m a <;> rfl

theorem reads_cons (m : Reader) (c : Char) (l : List Char) :
    reads m (c :: l) = (read m c).bind (fun m => reads m l) := by
  rw [reads, run_cons]
  cases read m c <;> rfl

theorem hexDigit_hexChar : ∀ n, n < 16 → hexDigit (hexChar n) = some n := by
  decide

/-- The unit of an escaped character is the character's own. -/
theorem run_escapeChar (units : List Nat) (s : State) (c : Char) :
    run (.string units, s) (escapeChar c) = some (.string (units ++ [c.toNat]), s) := by
  unfold escapeChar
  -- one case for each escape with a letter of its own, then `\u`, then no escape
  split
  · next h => subst h; rfl
  split
  · next h => subst h; rfl
  split
  · next h => rw [h]; rfl
  split
  · next h => rw [h]; rfl
  split
  · next h => rw [h]; rfl
  split
  · next h => rw [h]; rfl
  split
  · next h => rw [h]; rfl
  split
  · next h =>
    have hhigh := hexDigit_hexChar (c.toNat / 16) (by omega)
    have hlow := hexDigit_hexChar (c.toNat % 16) (by omega)
    have hzero : hexDigit '0' = some 0 := rfl
    have hunit : ((0 * 16 + 0) * 16 + 0) * 16 + c.toNat / 16 = c.toNat / 16 := by omega
    have hsum : c.toNat / 16 * 16 + c.toNat % 16 = c.toNat := by omega
    simp [run, read, lexStep, hzero, hhigh, hlow, hsum]
  · next hquote hback _ _ _ _ _ hcontrol =>
    have hplain : isUnescaped c = true := isUnescaped_iff.mpr ⟨hquote, hback, hcontrol⟩
    rw [run_cons, read_plain hplain]
    rfl

theorem run_escaped (s : State) : ∀ (l : List Char) (units : List Nat),
    run (.string units, s) (l.flatMap escapeChar) = some (.string (units ++ l.map Char.toNat), s)
  | [], units => by
    rw [List.flatMap_nil, List.map_nil, List.append_nil]
    rfl
  | c :: l, units => by
    rw [List.flatMap_cons, run_append, run_escapeChar, Option.bind_some, run_escaped s l,
      List.append_assoc]
    rfl

theorem reads_quote {s s' : State} {str : String} {rest : List Char}
    (h : step s (.scalar (.string str)) = some s') :
    reads (.between, s) (quote str ++ rest) = reads (.between, s') rest := by
  have hopen : read (.between, s) '"' = some (.string [], s) := rfl
  rw [quote, List.cons_append, reads_cons, hopen, Option.bind_some, List.append_assoc, reads_append,
    run_escaped, Option.bind_some, List.singleton_append, reads_cons, List.nil_append, read_quote,
    ofUnits_toNat, String.ofList_toList, h]
  rfl

theorem reads_token {c : Char} {t : Token} {s s' : State} {rest : List Char}
    (h : openLexeme c = some (.between, [t])) (hstep : step s t = some s') :
    reads (.between, s) (c :: rest) = reads (.between, s') rest := by
  rw [reads, run_token h hstep, reads]

theorem reads_blank {s : State} {blanks rest : List Char} (h : ∀ c ∈ blanks, isBlank c = true) :
    reads (.between, s) (blanks ++ rest) = reads (.between, s) rest := by
  induction blanks with
  | nil => rfl
  | cons c blanks ih =>
    obtain ⟨hc, hrest⟩ := List.forall_mem_cons.mp h
    have hread : read (.between, s) c = some (.between, s) := by
      simp only [isBlank, Bool.or_eq_true, beq_iff_eq] at hc
      rcases hc with ((rfl | rfl) | rfl) | rfl <;> rfl
    rw [List.cons_append, reads_cons, hread, Option.bind_some, ih hrest]

/-! ## Words -/

/-- A text at whose head a word is over. -/
def EndsWord (rest : List Char) : Prop := ∀ c ∈ rest.head?, isWordChar c = false

theorem run_word (s : State) {l : List Char} (h : ∀ c ∈ l, isWordChar c = true) : ∀ letters,
    run (.word letters, s) l = some (.word (letters ++ l), s) := by
  induction l with
  | nil =>
    intro letters
    rw [List.append_nil]
    rfl
  | cons c l ih =>
    intro letters
    obtain ⟨hc, hrest⟩ := List.forall_mem_cons.mp h
    have hread : read (.word letters, s) c = some (.word (letters ++ [c]), s) := by
      simp [read, lexStep, hc]
    rw [run_cons, hread, Option.bind_some, ih hrest, List.append_assoc, List.singleton_append]

/-- A word that is over is its value, then the character after it. -/
theorem reads_after_word {word rest : List Char} {v : Value} {s s' : State}
    (hvalue : wordValue word = some v) (hstep : step s (.scalar v) = some s')
    (hrest : EndsWord rest) : reads (.word word, s) rest = reads (.between, s') rest := by
  cases rest with
  | nil => simp [reads, run, result, lastTokens, hvalue, hstep]
  | cons c rest =>
    have hc : isWordChar c = false := hrest c rfl
    have hread : read (.word word, s) c = read (.between, s') c := by
      simp only [read, lexStep, hc, Bool.false_eq_true, if_false, hvalue, Option.bind_some]
      cases openLexeme c with
      | none => rfl
      | some lt => simp [hstep]
    rw [reads_cons, hread, ← reads_cons]

/-- Where a character that can stand in a word begins a token, it begins a word. -/
theorem openLexeme_word {c : Char} (h : isWordChar c = true) : openLexeme c = some (.word [c], []) := by
  have hne : ∀ d, isWordChar d = false → c ≠ d := by
    rintro d hd rfl
    rw [hd] at h
    cases h
  unfold openLexeme
  rw [if_neg, if_neg (hne _ rfl), if_neg (hne _ rfl), if_neg (hne _ rfl), if_neg (hne _ rfl),
    if_neg (hne _ rfl), if_neg (hne _ rfl), if_neg (hne _ rfl), if_pos h]
  rintro (rfl | rfl | rfl | rfl) <;> cases h

theorem reads_word {word rest : List Char} {v : Value} {s s' : State}
    (hne : word ≠ []) (hchars : ∀ c ∈ word, isWordChar c = true)
    (hvalue : wordValue word = some v) (hstep : step s (.scalar v) = some s')
    (hrest : EndsWord rest) : reads (.between, s) (word ++ rest) = reads (.between, s') rest := by
  cases word with
  | nil => exact absurd rfl hne
  | cons c word =>
    obtain ⟨hc, hword⟩ := List.forall_mem_cons.mp hchars
    have hread : read (.between, s) c = some (.word [c], s) := by
      simp [read, lexStep, openLexeme_word hc]
    rw [List.cons_append, reads_cons, hread, Option.bind_some, reads_append, run_word s hword,
      Option.bind_some, List.singleton_append]
    exact reads_after_word hvalue hstep hrest

/-! ## Numbers -/

theorem isWordChar_of_isDigit {c : Char} (h : c.isDigit = true) : isWordChar c = true := by
  simp [isWordChar, Char.isAlphanum, h]

/-- What may stand after digits. -/
theorem afterDigits_word {l rest : List Char} (h : afterDigits l = some rest)
    (hrest : ∀ c ∈ rest, isWordChar c = true) : ∀ c ∈ l, isWordChar c = true := by
  unfold afterDigits at h
  split at h
  · cases h
  · cases h
    intro c hc
    rw [← List.takeWhile_append_dropWhile (p := Char.isDigit) (l := l)] at hc
    rcases List.mem_append.mp hc with hc | hc
    · exact isWordChar_of_isDigit (List.mem_takeWhile_imp hc)
    · exact hrest c hc

theorem isExponent_word {l : List Char} (h : isExponent l = true) : ∀ c ∈ l, isWordChar c = true := by
  cases l with
  | nil => simp
  | cons c rest =>
    simp only [isExponent, Bool.and_eq_true, Bool.or_eq_true, beq_iff_eq] at h
    obtain ⟨hc, hdigits⟩ := h
    refine List.forall_mem_cons.mpr ⟨by rcases hc with rfl | rfl <;> rfl, ?_⟩
    split at hdigits
    · next rest =>
      exact List.forall_mem_cons.mpr ⟨rfl, afterDigits_word hdigits (by simp)⟩
    · next rest =>
      exact List.forall_mem_cons.mpr ⟨rfl, afterDigits_word hdigits (by simp)⟩
    · exact afterDigits_word hdigits (by simp)

theorem isFraction_word {l : List Char} (h : isFraction l = true) : ∀ c ∈ l, isWordChar c = true := by
  unfold isFraction at h
  split at h
  · next rest =>
    obtain ⟨l, hl, hexp⟩ := (Option.any_eq_true _ _).mp h
    exact List.forall_mem_cons.mpr ⟨rfl, afterDigits_word hl (isExponent_word hexp)⟩
  · exact isExponent_word h

theorem wholePart_word {l : List Char} (h : (afterDigits l).any isFraction = true) :
    ∀ c ∈ l, isWordChar c = true := by
  obtain ⟨rest, hrest, hfraction⟩ := (Option.any_eq_true _ _).mp h
  exact afterDigits_word hrest (isFraction_word hfraction)

theorem isNumber_word {l : List Char} (h : isNumber l = true) : ∀ c ∈ l, isWordChar c = true := by
  unfold isNumber at h
  split at h
  · next rest heq =>
    have hzero : ∀ c ∈ '0' :: rest, isWordChar c = true :=
      List.forall_mem_cons.mpr ⟨rfl, isFraction_word h⟩
    split at heq
    · rw [heq]
      exact List.forall_mem_cons.mpr ⟨rfl, hzero⟩
    · rw [heq]
      exact hzero
  · split at h
    · exact List.forall_mem_cons.mpr ⟨rfl, wholePart_word h⟩
    · exact wholePart_word h

theorem isNumber_ne {l : List Char} (h : isNumber l = true) :
    l ≠ [] ∧ l ≠ ['n', 'u', 'l', 'l'] ∧ l ≠ ['t', 'r', 'u', 'e'] ∧ l ≠ ['f', 'a', 'l', 's', 'e'] := by
  refine ⟨?_, ?_, ?_, ?_⟩ <;> (rintro rfl; revert h; decide)

theorem wordValue_number {text : String} (h : isNumber text.toList = true) :
    wordValue text.toList = some (.number text) := by
  obtain ⟨-, hnull, htrue, hfalse⟩ := isNumber_ne h
  rw [wordValue, if_neg hnull, if_neg htrue, if_neg hfalse, if_pos h, String.ofList_toList]

theorem toDigits_head (n : Nat) (hn : 0 < n) :
    ∃ c rest, Nat.toDigits 10 n = c :: rest ∧ c ≠ '0' := by
  induction n using Nat.strong_induction_on with
  | _ n ih =>
    by_cases hlt : n < 10
    · refine ⟨n.digitChar, [], Nat.toDigits_of_lt_base hlt, ?_⟩
      have hall : ∀ m, m < 10 → 0 < m → m.digitChar ≠ '0' := by decide
      exact hall n hlt hn
    · obtain ⟨c, rest, hdigits, hc⟩ := ih (n / 10) (by omega) (by omega)
      refine ⟨c, rest ++ [(n % 10).digitChar], ?_, hc⟩
      rw [Nat.toDigits_of_base_le (by decide) (by omega), hdigits, List.cons_append]

/-- The decimal digits of a number are a number. -/
theorem isNumber_toString (n : Nat) : isNumber (toString n).toList = true := by
  have hchars : (toString n).toList = Nat.toDigits 10 n := Nat.toList_repr
  rw [hchars]
  rcases Nat.eq_zero_or_pos n with rfl | hn
  · rfl
  · obtain ⟨c, rest, hdigits, hzero⟩ := toDigits_head n hn
    have hall : ∀ d ∈ c :: rest, d.isDigit = true := fun d hd =>
      Nat.isDigit_of_mem_toDigits (by decide) (by decide) (hdigits ▸ hd)
    have hminus : c ≠ '-' := by
      rintro rfl
      exact absurd (hall '-' List.mem_cons_self) (by decide)
    have hafter : afterDigits (c :: rest) = some [] := by
      rw [afterDigits, List.takeWhile_eq_self_iff.mpr hall, List.dropWhile_eq_nil_iff.mpr hall]
      rfl
    simp [hdigits, isNumber, hminus, hzero, hafter, isFraction, isExponent]

/-! ## The round trip -/

/-- A state that takes a value, on `stack`. -/
def Expects (s : State) (stack : List Frame) : Prop :=
  ∀ {t s'}, valueStep stack t = some s' → step s t = some s'

theorem expects_value (stack : List Frame) : Expects (.value stack) stack := fun h => h

theorem expects_firstElement (stack : List Frame) :
    Expects (.firstElement stack) (.array [] :: stack) := by
  intro t s' h
  cases t <;> first | exact h | cases h

/-- The text of a value, read where a value is expected, leaves the reader after it. -/
def ReadsBack (L : Layout) (v : Value) : Prop :=
  ∀ {s : State} {stack : List Frame} {depth : Nat} {rest : List Char}, Expects s stack →
    EndsWord rest →
    reads (.between, s) (printValue L depth v ++ rest) = reads (.between, .after stack v) rest

section
variable {L : Layout} {stack : List Frame} {depth : Nat} {rest : List Char}

theorem endsWord_comma : EndsWord (',' :: rest) := by
  intro c hc
  cases hc
  rfl

theorem endsWord_blank {blanks : List Char} {c : Char} (h : ∀ c ∈ blanks, isBlank c = true)
    (hc : isWordChar c = false) : EndsWord (blanks ++ c :: rest) := by
  cases blanks with
  | nil =>
    intro d hd
    cases hd
    exact hc
  | cons b blanks =>
    intro d hd
    cases hd
    have hb := h b List.mem_cons_self
    simp only [isBlank, Bool.or_eq_true, beq_iff_eq] at hb
    rcases hb with ((rfl | rfl) | rfl) | rfl <;> rfl

/-- What stands between a value and the end of its array or object ends a word. -/
theorem endsWord_elements {vs : List Value} {c : Char} (hc : isWordChar c = false) (depth' : Nat) :
    EndsWord (printElements L depth vs ++ (L.newline depth' ++ c :: rest)) := by
  cases vs with
  | nil => exact endsWord_blank (L.blank_newline depth') hc
  | cons v vs =>
    rw [printElements, List.cons_append]
    exact endsWord_comma

theorem endsWord_members {ms : List (String × Value)} {c : Char} (hc : isWordChar c = false)
    (depth' : Nat) : EndsWord (printMembers L depth ms ++ (L.newline depth' ++ c :: rest)) := by
  cases ms with
  | nil => exact endsWord_blank (L.blank_newline depth') hc
  | cons m ms =>
    rw [printMembers, List.cons_append]
    exact endsWord_comma

theorem reads_elements (depth' : Nat) : ∀ {vs done : List Value} {v : Value},
    (∀ v ∈ vs, ReadsBack L v) →
    reads (.between, .after (.array done :: stack) v)
        (printElements L depth vs ++ (L.newline depth' ++ ']' :: rest)) =
      reads (.between, .after stack (.array (done ++ v :: vs))) rest
  | [], done, v, _ => by
    rw [printElements, List.nil_append, reads_blank (L.blank_newline depth')]
    exact reads_token rfl rfl
  | w :: vs, done, v, h => by
    obtain ⟨hw, hvs⟩ := List.forall_mem_cons.mp h
    have hcomma : step (.after (.array done :: stack) v) .comma =
        some (.value (.array (done ++ [v]) :: stack)) := rfl
    rw [printElements, List.cons_append, reads_token rfl hcomma, List.append_assoc,
      reads_blank (L.blank_newline depth), List.append_assoc,
      hw (expects_value _) (endsWord_elements rfl depth'), reads_elements depth' hvs,
      List.append_assoc, List.singleton_append]

/-- A member is read from its quote on, where a key is expected. -/
theorem reads_member {s : State} {done : List (String × Value)} {m : String × Value}
    (hm : ReadsBack L m.2) (hs : ∀ {t s'}, keyStep stack done t = some s' → step s t = some s')
    (hrest : EndsWord rest) :
    reads (.between, s) (printMember L depth m ++ rest) =
      reads (.between, .after (.object done m.1 :: stack) m.2) rest := by
  have hkey : step s (.scalar (.string m.1)) = some (.colon stack done m.1) := hs rfl
  have hcolon : step (.colon stack done m.1) .colon = some (.value (.object done m.1 :: stack)) := rfl
  rw [printMember, List.append_assoc, reads_quote hkey, List.cons_append, reads_token rfl hcolon,
    List.append_assoc, reads_blank L.blank_afterColon, hm (expects_value _) hrest]

theorem reads_members (depth' : Nat) : ∀ {ms done : List (String × Value)} {m : String × Value},
    (∀ m ∈ ms, ReadsBack L m.2) →
    reads (.between, .after (.object done m.1 :: stack) m.2)
        (printMembers L depth ms ++ (L.newline depth' ++ '\x7d' :: rest)) =
      reads (.between, .after stack (.object (done ++ m :: ms))) rest
  | [], done, m, _ => by
    rw [printMembers, List.nil_append, reads_blank (L.blank_newline depth')]
    exact reads_token rfl rfl
  | n :: ms, done, m, h => by
    obtain ⟨hn, hms⟩ := List.forall_mem_cons.mp h
    have hcomma : step (.after (.object done m.1 :: stack) m.2) .comma =
        some (.key stack (done ++ [m])) := rfl
    have hkey : ∀ {t s'}, keyStep stack (done ++ [m]) t = some s' →
        step (.key stack (done ++ [m])) t = some s' := fun h => h
    rw [printMembers, List.cons_append, reads_token rfl hcomma, List.append_assoc,
      reads_blank (L.blank_newline depth), List.append_assoc,
      reads_member hn hkey (endsWord_members rfl depth'), reads_members depth' hms,
      List.append_assoc, List.singleton_append]

theorem readsBack_word {v : Value} {word : List Char} (hprint : ∀ depth, printValue L depth v = word)
    (hne : word ≠ []) (hchars : ∀ c ∈ word, isWordChar c = true) (hvalue : wordValue word = some v) :
    ReadsBack L v := by
  intro s stack depth rest hs hrest
  rw [hprint, reads_word hne hchars hvalue (hs rfl) hrest]

theorem readsBack_array {vs : List Value} (h : ∀ v ∈ vs, ReadsBack L v) :
    ReadsBack L (.array vs) := by
  intro s stack depth rest hs hrest
  cases vs with
  | nil =>
    rw [printValue, List.cons_append, reads_token rfl (hs rfl), List.singleton_append]
    exact reads_token rfl rfl
  | cons v vs =>
    obtain ⟨hv, hvs⟩ := List.forall_mem_cons.mp h
    rw [printValue, List.cons_append, reads_token rfl (hs rfl), List.append_assoc,
      reads_blank (L.blank_newline _)]
    simp only [List.append_assoc, List.singleton_append]
    rw [hv (expects_firstElement stack) (endsWord_elements rfl depth), reads_elements depth hvs]
    rfl

theorem readsBack_object {ms : List (String × Value)} (h : ∀ m ∈ ms, ReadsBack L m.2) :
    ReadsBack L (.object ms) := by
  intro s stack depth rest hs hrest
  cases ms with
  | nil =>
    rw [printValue, List.cons_append, reads_token rfl (hs rfl), List.singleton_append]
    exact reads_token rfl rfl
  | cons m ms =>
    obtain ⟨hm, hms⟩ := List.forall_mem_cons.mp h
    have hfirst : ∀ {t s'}, keyStep stack [] t = some s' → step (.firstKey stack) t = some s' := by
      intro t s' ht
      cases t <;> first | exact ht | cases ht
    rw [printValue, List.cons_append, reads_token rfl (hs rfl), List.append_assoc,
      reads_blank (L.blank_newline _)]
    simp only [List.append_assoc, List.singleton_append]
    rw [reads_member hm hfirst (endsWord_members rfl depth), reads_members depth hms]
    rfl

theorem readsBack {v : Value} (h : Printable v) : ReadsBack L v := by
  induction h with
  | null => exact readsBack_word (fun _ => rfl) (by decide) (List.all_eq_true.mp rfl) rfl
  | bool b =>
    cases b with
    | true => exact readsBack_word (fun _ => rfl) (by decide) (List.all_eq_true.mp rfl) rfl
    | false => exact readsBack_word (fun _ => rfl) (by decide) (List.all_eq_true.mp rfl) rfl
  | number hn =>
    exact readsBack_word (fun _ => rfl) (isNumber_ne hn).1 (isNumber_word hn) (wordValue_number hn)
  | string s =>
    intro st stack depth rest hs hrest
    exact reads_quote (hs rfl)
  | array _ ih => exact readsBack_array ih
  | object _ ih => exact readsBack_object ih

end

theorem parse_print (L : Layout) {v : Value} (h : Printable v) : parse (print L v) = some v := by
  have hback : reads (.between, .value []) (printValue L 0 v ++ []) = reads (.between, .after [] v) [] :=
    readsBack h (expects_value []) (by simp [EndsWord])
  rw [List.append_nil] at hback
  rw [parse_eq_reads, print, String.toList_ofList, hback]
  rfl

/-! ## A compact text is one line -/

@[simp] theorem compact_newline (depth : Nat) : Layout.compact.newline depth = [] := rfl

@[simp] theorem compact_afterColon : Layout.compact.afterColon = [] := rfl

theorem quote_no_newline (s : String) : '\n' ∉ quote s := by
  have hhex : ∀ n < 16, hexChar n ≠ '\n' := by decide
  have hescape : ∀ c, '\n' ∉ escapeChar c := by
    intro c
    unfold escapeChar
    by_cases hnewline : c = '\n'
    · subst hnewline
      decide
    · split_ifs <;> simp [Ne.symm hnewline]
      refine ⟨Ne.symm (hhex _ ?_), Ne.symm (hhex _ ?_)⟩ <;> omega
  simp [quote, hescape]

theorem printElements_no_newline {vs : List Value} {depth : Nat}
    (h : ∀ v ∈ vs, '\n' ∉ printValue .compact depth v) : '\n' ∉ printElements .compact depth vs := by
  induction vs with
  | nil => simp [printElements]
  | cons v vs ih =>
    obtain ⟨hv, hvs⟩ := List.forall_mem_cons.mp h
    simp [printElements, hv, ih hvs]

theorem printMember_no_newline {m : String × Value} {depth : Nat}
    (h : '\n' ∉ printValue .compact depth m.2) : '\n' ∉ printMember .compact depth m := by
  obtain ⟨key, v⟩ := m
  simp [printMember, quote_no_newline, h]

theorem printMembers_no_newline {ms : List (String × Value)} {depth : Nat}
    (h : ∀ m ∈ ms, '\n' ∉ printValue .compact depth m.2) : '\n' ∉ printMembers .compact depth ms := by
  induction ms with
  | nil => simp [printMembers]
  | cons m ms ih =>
    obtain ⟨hm, hms⟩ := List.forall_mem_cons.mp h
    simp [printMembers, printMember_no_newline hm, ih hms]

theorem print_compact_one_line {v : Value} (h : Printable v) : '\n' ∉ (print .compact v).toList := by
  have hword : ∀ {word : List Char}, (∀ c ∈ word, isWordChar c = true) → '\n' ∉ word :=
    fun h hmem => absurd (h _ hmem) (by decide)
  have hvalue : ∀ depth, '\n' ∉ printValue .compact depth v := by
    induction h with
    | null => exact fun _ => by simp [printValue]
    | bool b => exact fun _ => by cases b <;> simp [printValue, boolWord]
    | number hn => exact fun _ => hword (isNumber_word hn)
    | string s => exact fun _ => quote_no_newline s
    | @array vs _ ih =>
      intro depth
      cases vs with
      | nil => simp [printValue]
      | cons v vs =>
        obtain ⟨hv, hvs⟩ := List.forall_mem_cons.mp ih
        have hrest := printElements_no_newline (fun w hw => hvs w hw (depth + 1))
        simp [printValue, hv (depth + 1), hrest]
    | @object ms _ ih =>
      intro depth
      cases ms with
      | nil => simp [printValue]
      | cons m ms =>
        obtain ⟨hm, hms⟩ := List.forall_mem_cons.mp ih
        have hrest := printMembers_no_newline (fun n hn => hms n hn (depth + 1))
        simp [printValue, printMember_no_newline (hm (depth + 1)), hrest]
  rw [print, String.toList_ofList]
  exact hvalue 0

end JsonText
