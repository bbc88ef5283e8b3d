import Mathlib.Data.List.TakeWhile

/-
  Text — the string functions of the standard library, over lists of characters

  A `String` is its list of Unicode scalar values, so each function is a function
  of `toList`. Case folding is the ASCII one: `Char.toLower` and `Char.toUpper`
  move only A–Z and a–z. Splits take the first occurrence of their separator.
  Bytes become text by the lossy decoding: every maximal ill-formed piece is one
  U+FFFD.

  Correspondence (Rust ↔ Lean):
    `str::eq_ignore_ascii_case`   ↔ `eqIgnoreAsciiCase`
    `str::split_once`             ↔ `splitOnce`
    `str::split`                  ↔ `split`
    `str::trim`                   ↔ `trim`
    `str::contains`               ↔ `contains`
    `str::strip_prefix`, `strip_suffix` ↔ `stripPrefix`, `stripSuffix`
    `str::parse::<u8>` (`u64`)    ↔ `parseUint` with the type's largest value
    `String::from_utf8_lossy`     ↔ `fromUtf8Lossy`
    `String::from_utf8`           ↔ `fromUtf8`
-/

namespace Text

abbrev Bytes := List UInt8

/-! ## Case folding -/

def toAsciiLowercase (s : String) : String := String.ofList (s.toList.map Char.toLower)

def toAsciiUppercase (s : String) : String := String.ofList (s.toList.map Char.toUpper)

def eqIgnoreAsciiCase (a b : String) : Bool :=
  a.toList.map Char.toLower == b.toList.map Char.toLower

/-! ## Splitting -/

/-- Cut `l` around the first occurrence of `sep`. -/
def splitOnceList (sep : List Char) : List Char → Option (List Char × List Char)
  | [] => if sep.isEmpty then some ([], []) else none
  | c :: cs =>
    if sep.isPrefixOf (c :: cs) then some ([], (c :: cs).drop sep.length)
    else (splitOnceList sep cs).map (fun p => (c :: p.1, p.2))

def splitOnce (s sep : String) : Option (String × String) :=
  (splitOnceList sep.toList s.toList).map (fun p => (String.ofList p.1, String.ofList p.2))

/-- Every piece of `l` between occurrences of `sep`, empty pieces included. -/
def splitList (sep : Char) : List Char → List (List Char)
  | [] => [[]]
  | c :: cs =>
    if c = sep then [] :: splitList sep cs
    else match splitList sep cs with
      | [] => [[c]]
      | piece :: rest => (c :: piece) :: rest

def split (s : String) (sep : Char) : List String := (splitList sep s.toList).map String.ofList

def stripPrefix (s pre : String) : Option String :=
  if pre.toList.isPrefixOf s.toList then some (String.ofList (s.toList.drop pre.length)) else none

def stripSuffix (s post : String) : Option String :=
  if post.toList.isSuffixOf s.toList then
    some (String.ofList (s.toList.take (s.length - post.length)))
  else none

def contains (s sub : String) : Bool := (splitOnceList sub.toList s.toList).isSome

theorem splitOnceList_single {sep : Char} {rest : List Char} : ∀ {l : List Char}, sep ∉ l →
    splitOnceList [sep] (l ++ sep :: rest) = some (l, rest)
  | [], _ => by simp [splitOnceList]
  | c :: cs, h => by
    have hc : sep ≠ c := fun e => h (by simp [e])
    have ih : splitOnceList [sep] (cs ++ sep :: rest) = some (cs, rest) :=
      splitOnceList_single (fun h' => h (List.mem_cons_of_mem c h'))
    simp [splitOnceList, hc, ih]

/-- A piece without separators is one piece. -/
theorem splitList_none {sep : Char} : ∀ {l : List Char}, sep ∉ l → splitList sep l = [l]
  | [], _ => rfl
  | c :: cs, h => by
    have hc : c ≠ sep := fun e => h (by simp [e])
    simp [splitList, hc, splitList_none (fun h' => h (List.mem_cons_of_mem c h'))]

/-- Splitting a joined text: the first piece, and the pieces of the rest. -/
theorem splitList_cons {sep : Char} : ∀ {a rest : List Char}, sep ∉ a →
    splitList sep (a ++ sep :: rest) = a :: splitList sep rest
  | [], _, _ => by simp [splitList]
  | c :: cs, rest, h => by
    have hc : c ≠ sep := fun e => h (by simp [e])
    simp [splitList, hc, splitList_cons (a := cs) (fun h' => h (List.mem_cons_of_mem c h'))]

theorem splitOnceList_eq_some {sep : Char} {l a rest : List Char} :
    splitOnceList [sep] l = some (a, rest) ↔ l = a ++ sep :: rest ∧ sep ∉ a := by
  refine ⟨?_, ?_⟩
  · intro h
    induction l generalizing a with
    | nil => simp [splitOnceList] at h
    | cons c cs ih =>
      by_cases hc : sep = c
      · simp [splitOnceList, hc] at h
        simp [h, hc]
      · simp [splitOnceList, hc] at h
        obtain ⟨x, hx, rfl⟩ := h
        obtain ⟨rfl, hout⟩ := ih hx
        simp [hc, hout]
  · intro h
    rw [h.1]
    exact splitOnceList_single h.2

/-- `l` is `a`, `sep` and `rest`, and no occurrence of `sep` starts earlier. -/
def FirstCut (sep l a rest : List Char) : Prop :=
  l = a ++ (sep ++ rest) ∧ ∀ a' rest', l = a' ++ (sep ++ rest') → a.length ≤ a'.length

theorem firstCut_of_prefix {sep l a rest : List Char} (h : sep <+: l) :
    FirstCut sep l a rest ↔ a = [] ∧ l = sep ++ rest := by
  refine ⟨?_, ?_⟩
  · intro hcut
    obtain ⟨tail, htail⟩ := h
    have hle : a.length ≤ [].length := hcut.2 [] tail htail.symm
    have ha : a = [] := List.length_eq_zero_iff.mp (Nat.le_zero.mp hle)
    refine ⟨ha, ?_⟩
    rw [hcut.1, ha, List.nil_append]
  · intro h
    obtain ⟨rfl, rfl⟩ := h
    exact ⟨rfl, fun _ _ _ => Nat.zero_le _⟩

theorem firstCut_cons {sep cs a rest : List Char} {c : Char} (h : ¬ sep <+: c :: cs) :
    FirstCut sep (c :: cs) a rest ↔ ∃ front, a = c :: front ∧ FirstCut sep cs front rest := by
  refine ⟨?_, ?_⟩
  · intro hcut
    cases a with
    | nil => exact absurd ⟨rest, hcut.1.symm⟩ h
    | cons d front =>
      obtain ⟨rfl, hcs⟩ := List.cons.inj hcut.1
      refine ⟨front, rfl, hcs, ?_⟩
      intro a' rest' he
      have hle := hcut.2 (c :: a') rest' (by rw [he, List.cons_append])
      exact Nat.le_of_succ_le_succ hle
  · intro hfront
    obtain ⟨front, rfl, hcs, hfirst⟩ := hfront
    refine ⟨by rw [hcs, List.cons_append], ?_⟩
    intro a' rest' he
    cases a' with
    | nil => exact absurd ⟨rest', he.symm⟩ h
    | cons d front' => exact Nat.succ_le_succ (hfirst front' rest' (List.cons.inj he).2)

/-- The split is the cut at the first occurrence. -/
theorem splitOnceList_firstCut {sep l a rest : List Char} :
    splitOnceList sep l = some (a, rest) ↔ FirstCut sep l a rest := by
  induction l generalizing a with
  | nil =>
    cases sep with
    | nil => simp [splitOnceList, firstCut_of_prefix, eq_comm]
    | cons x xs => simp [splitOnceList, FirstCut]
  | cons c cs ih =>
    rw [splitOnceList]
    by_cases hpre : sep <+: c :: cs
    · rw [if_pos (List.isPrefixOf_iff_prefix.mpr hpre), firstCut_of_prefix hpre]
      obtain ⟨tail, htail⟩ := hpre
      rw [← htail, List.drop_left]
      simp [eq_comm]
    · rw [if_neg (fun hp => hpre (List.isPrefixOf_iff_prefix.mp hp)), firstCut_cons hpre,
        Option.map_eq_some_iff]
      refine ⟨?_, ?_⟩
      · intro h
        obtain ⟨p, hp, he⟩ := h
        obtain ⟨rfl, rfl⟩ := Prod.mk.inj he
        exact ⟨p.1, rfl, ih.mp hp⟩
      · intro h
        obtain ⟨front, rfl, hfront⟩ := h
        exact ⟨(front, rest), ih.mpr hfront, rfl⟩

theorem splitOnce_eq_some {s sep a b : String} :
    splitOnce s sep = some (a, b) ↔ FirstCut sep.toList s.toList a.toList b.toList := by
  rw [← splitOnceList_firstCut, splitOnce, Option.map_eq_some_iff]
  refine ⟨?_, ?_⟩
  · intro h
    obtain ⟨p, hp, he⟩ := h
    obtain ⟨rfl, rfl⟩ := Prod.mk.inj he
    rw [hp, String.toList_ofList, String.toList_ofList]
  · intro h
    exact ⟨_, h, by rw [String.ofList_toList, String.ofList_toList]⟩

/-- A text without the separator's first character ends before the first occurrence. -/
theorem firstCut_of_not_mem {c : Char} {sep a rest : List Char} (ha : c ∉ a) :
    FirstCut (c :: sep) (a ++ (c :: sep ++ rest)) a rest := by
  refine ⟨rfl, ?_⟩
  intro a' rest' he
  rcases List.append_eq_append_iff.mp he with ⟨between, ha', -⟩ | ⟨between, ha', hrest⟩
  · rw [ha', List.length_append]
    exact Nat.le_add_right _ _
  · cases between with
    | nil => rw [ha', List.append_nil]
    | cons d between =>
      have hd : c = d := (List.cons.inj hrest).1
      exact absurd (by simp [ha', hd]) ha

theorem splitOnce_char_eq_some {x : Char} {s sep a b : String} (hsep : sep.toList = [x]) :
    splitOnce s sep = some (a, b) ↔ s = a ++ sep ++ b ∧ x ∉ a.toList := by
  have happend : (a ++ sep ++ b).toList = a.toList ++ x :: b.toList := by
    simp [String.toList_append, hsep]
  rw [splitOnce_eq_some, ← splitOnceList_firstCut, hsep, splitOnceList_eq_some, ← happend,
    String.toList_inj]

theorem splitOnce_char_eq_none {x : Char} {s sep : String} (hsep : sep.toList = [x]) :
    splitOnce s sep = none ↔ x ∉ s.toList := by
  refine ⟨?_, ?_⟩
  · intro hnone hx
    obtain ⟨a, b, hs, ha⟩ := List.eq_append_cons_of_mem hx
    have hsome : splitOnceList [x] s.toList = some (a, b) := splitOnceList_eq_some.mpr ⟨hs, ha⟩
    rw [splitOnce, hsep, hsome] at hnone
    cases hnone
  · intro hx
    cases hcut : splitOnce s sep with
    | none => rfl
    | some p =>
      have hs : s = p.1 ++ sep ++ p.2 := ((splitOnce_char_eq_some hsep).mp hcut).1
      exact absurd (by rw [hs]; simp [String.toList_append, hsep]) hx

/-- The first piece is the text, or what comes before the first separator. -/
theorem splitList_eq_cons {sep : Char} {l a : List Char} {pieces : List (List Char)} :
    splitList sep l = a :: pieces ↔ (pieces = [] ∧ l = a ∧ sep ∉ a) ∨
      ∃ rest, l = a ++ sep :: rest ∧ sep ∉ a ∧ splitList sep rest = pieces := by
  refine ⟨?_, ?_⟩
  · intro h
    by_cases hsep : sep ∈ l
    · obtain ⟨b, rest, rfl, hb⟩ := List.eq_append_cons_of_mem hsep
      rw [splitList_cons hb] at h
      cases h
      exact Or.inr ⟨rest, rfl, hb, rfl⟩
    · rw [splitList_none hsep] at h
      cases h
      exact Or.inl ⟨rfl, rfl, hsep⟩
  · intro h
    rcases h with ⟨rfl, rfl, hout⟩ | ⟨rest, rfl, hout, rfl⟩
    · exact splitList_none hout
    · exact splitList_cons hout

theorem splitList_ne_nil {sep : Char} (l : List Char) : splitList sep l ≠ [] := by
  intro h
  cases l with
  | nil => cases h
  | cons c cs =>
    rw [splitList] at h
    split at h
    · cases h
    · split at h <;> cases h

/-- The pieces are the parts without separators that the text joins. -/
theorem splitList_eq_iff {sep : Char} {l : List Char} {pieces : List (List Char)} :
    splitList sep l = pieces ↔
      pieces ≠ [] ∧ (∀ piece ∈ pieces, sep ∉ piece) ∧ l = [sep].intercalate pieces := by
  induction pieces generalizing l with
  | nil => simp [splitList_ne_nil]
  | cons a pieces ih =>
    rw [splitList_eq_cons]
    cases pieces with
    | nil => simp [splitList_ne_nil, List.intercalate, and_comm]
    | cons b pieces =>
      simp only [ih]
      refine ⟨?_, ?_⟩
      · intro h
        obtain ⟨hnil, -⟩ | ⟨rest, rfl, ha, -, hrest, rfl⟩ := h
        · cases hnil
        · refine ⟨List.cons_ne_nil _ _, List.forall_mem_cons.mpr ⟨ha, hrest⟩, ?_⟩
          simp [List.intercalate]
      · intro h
        obtain ⟨-, hall, rfl⟩ := h
        obtain ⟨ha, hrest⟩ := List.forall_mem_cons.mp hall
        refine .inr ⟨[sep].intercalate (b :: pieces), ?_, ha, List.cons_ne_nil _ _, hrest, rfl⟩
        simp [List.intercalate]

theorem splitList_eq_three {sep : Char} {l a b c : List Char} : splitList sep l = [a, b, c] ↔
    l = a ++ sep :: (b ++ sep :: c) ∧ sep ∉ a ∧ sep ∉ b ∧ sep ∉ c := by
  simp [splitList_eq_iff, List.intercalate, and_comm]

theorem split_eq_five {s a b c d e : String} {sep : Char} : split s sep = [a, b, c, d, e] ↔
    s = a ++ String.singleton sep ++ b ++ String.singleton sep ++ c ++ String.singleton sep ++ d ++
      String.singleton sep ++ e ∧
    ∀ part ∈ [a, b, c, d, e], sep ∉ part.toList := by
  have hmap : split s sep = [a, b, c, d, e] ↔
      splitList sep s.toList = [a, b, c, d, e].map String.toList := by
    rw [split]
    refine ⟨?_, ?_⟩
    · intro h
      rw [← h, List.map_map]
      simp
    · intro h
      rw [h, List.map_map]
      simp
  rw [hmap, splitList_eq_iff, ← String.toList_inj]
  simp [List.intercalate, and_comm]

/-! ## Trimming -/

/-- The characters with the Unicode property White_Space. -/
def isWhitespace (c : Char) : Bool :=
  (0x09 ≤ c.toNat && c.toNat ≤ 0x0D) || c.toNat == 0x20 || c.toNat == 0x85 || c.toNat == 0xA0 ||
    c.toNat == 0x1680 || (0x2000 ≤ c.toNat && c.toNat ≤ 0x200A) || c.toNat == 0x2028 ||
    c.toNat == 0x2029 || c.toNat == 0x202F || c.toNat == 0x205F || c.toNat == 0x3000

def trimList (l : List Char) : List Char :=
  ((l.dropWhile isWhitespace).reverse.dropWhile isWhitespace).reverse

def trim (s : String) : String := String.ofList (trimList s.toList)

/-- `l` without the characters of `p` around it. -/
def stripList (p : Char → Bool) (l : List Char) : List Char :=
  ((l.dropWhile p).reverse.dropWhile p).reverse

theorem stripList_append {p : Char → Bool} {front back l : List Char} (hf : ∀ c ∈ front, p c = true)
    (hb : ∀ c ∈ back, p c = true) : stripList p (front ++ l ++ back) = stripList p l := by
  have hback : ∀ c ∈ back.reverse, p c = true := fun c hc => hb c (List.mem_reverse.mp hc)
  rw [List.append_assoc, stripList, stripList, List.dropWhile_append_of_pos hf,
    List.dropWhile_append]
  by_cases hl : (l.dropWhile p).isEmpty = true
  · rw [if_pos hl, List.isEmpty_iff.mp hl, List.dropWhile_eq_nil_iff.mpr hb]
  · rw [if_neg hl, List.reverse_append, List.dropWhile_append_of_pos hback]

theorem dropWhile_eq_self_iff_head {p : Char → Bool} {l : List Char} :
    l.dropWhile p = l ↔ ∀ c ∈ l.head?, p c = false := by
  cases l with
  | nil => simp
  | cons c l =>
    rw [List.dropWhile_eq_self_iff]
    simp

/-- Stripping changes nothing exactly where neither end is a character of `p`. -/
theorem stripList_eq_self_iff {p : Char → Bool} {l : List Char} :
    stripList p l = l ↔ (∀ c ∈ l.head?, p c = false) ∧ ∀ c ∈ l.getLast?, p c = false := by
  have hlast : ∀ l : List Char, (l.reverse.dropWhile p).reverse = l ↔ ∀ c ∈ l.getLast?, p c = false := by
    intro l
    rw [List.reverse_eq_iff, dropWhile_eq_self_iff_head, List.head?_reverse]
  refine ⟨?_, ?_⟩
  · intro h
    -- stripping either end already shortens a text that is not bare there
    have hle : (stripList p l).length ≤ (l.dropWhile p).length := by
      rw [stripList, List.length_reverse]
      exact (List.dropWhile_sublist _).length_le.trans (by rw [List.length_reverse])
    have hdrop : l.dropWhile p = l := by
      apply (List.dropWhile_suffix _).eq_of_length_le
      rwa [h] at hle
    refine ⟨dropWhile_eq_self_iff_head.mp hdrop, (hlast l).mp ?_⟩
    rwa [stripList, hdrop] at h
  · intro h
    rw [stripList, dropWhile_eq_self_iff_head.mpr h.1]
    exact (hlast l).mpr h.2

theorem trimList_eq_self {l : List Char} (h : ∀ c ∈ l, isWhitespace c = false) :
    trimList l = l :=
  stripList_eq_self_iff.mpr ⟨fun c hc => h c (List.mem_of_head? hc),
    fun c hc => h c (List.mem_of_getLast? hc)⟩

/-- White space around a text is trimmed away. -/
theorem trimList_append_blank {front back l : List Char} (hf : ∀ c ∈ front, isWhitespace c = true)
    (hb : ∀ c ∈ back, isWhitespace c = true) : trimList (front ++ l ++ back) = trimList l :=
  stripList_append hf hb

theorem trim_append_blank {front back s : String} (hf : ∀ c ∈ front.toList, isWhitespace c = true)
    (hb : ∀ c ∈ back.toList, isWhitespace c = true) : trim (front ++ s ++ back) = trim s := by
  rw [trim, String.toList_append, String.toList_append, trimList_append_blank hf hb, trim]

/-- Neither end of the text is white space. -/
def Bare (s : String) : Prop :=
  (∀ c ∈ s.toList.head?, isWhitespace c = false) ∧ ∀ c ∈ s.toList.getLast?, isWhitespace c = false

theorem trim_eq_self_iff (s : String) : trim s = s ↔ Bare s := by
  rw [trim, ← String.toList_inj, String.toList_ofList]
  exact stripList_eq_self_iff

/-! ## The white space of Python -/

/-- The characters `str.strip` of Python removes: White_Space, and four separators. -/
def isPyWhitespace (c : Char) : Bool := isWhitespace c || (0x1C ≤ c.toNat && c.toNat ≤ 0x1F)

def pyStrip (s : String) : String := String.ofList (stripList isPyWhitespace s.toList)

/-- Neither end of the text is white space to Python. -/
def PyBare (s : String) : Prop :=
  (∀ c ∈ s.toList.head?, isPyWhitespace c = false) ∧ ∀ c ∈ s.toList.getLast?, isPyWhitespace c = false

theorem pyStrip_eq_self_iff (s : String) : pyStrip s = s ↔ PyBare s := by
  rw [pyStrip, ← String.toList_inj, String.toList_ofList]
  exact stripList_eq_self_iff

theorem pyStrip_append_newline (s : String) : pyStrip (s ++ "\n") = pyStrip s := by
  have hnewline : ∀ c ∈ ("\n".toList), isPyWhitespace c = true := List.all_eq_true.mp rfl
  have hstrip : stripList isPyWhitespace ([] ++ s.toList ++ "\n".toList) =
      stripList isPyWhitespace s.toList := stripList_append (List.forall_mem_nil _) hnewline
  rw [pyStrip, String.toList_append]
  exact congrArg String.ofList hstrip

/-- A line of five parts without dots or blanks splits into them. -/
theorem split_dotted {a b c d e : String}
    (hdot : ∀ s ∈ [a, b, c, d, e], '.' ∉ s.toList)
    (hblank : ∀ s ∈ [a, b, c, d, e], ∀ x ∈ s.toList, isWhitespace x = false) :
    split (trim (a ++ "." ++ b ++ "." ++ c ++ "." ++ d ++ "." ++ e)) '.' = [a, b, c, d, e] := by
  have hlist : (a ++ "." ++ b ++ "." ++ c ++ "." ++ d ++ "." ++ e).toList =
      a.toList ++ '.' :: (b.toList ++ '.' :: (c.toList ++ '.' :: (d.toList ++ '.' :: e.toList))) := by
    simp
  have htrim : trimList (a ++ "." ++ b ++ "." ++ c ++ "." ++ d ++ "." ++ e).toList =
      (a ++ "." ++ b ++ "." ++ c ++ "." ++ d ++ "." ++ e).toList := by
    refine trimList_eq_self (fun x hx => ?_)
    rw [hlist] at hx
    have hsep : isWhitespace '.' = false := by decide
    simp only [List.mem_append, List.mem_cons] at hx
    rcases hx with h | rfl | h | rfl | h | rfl | h | rfl | h
    · exact hblank a (by simp) x h
    · exact hsep
    · exact hblank b (by simp) x h
    · exact hsep
    · exact hblank c (by simp) x h
    · exact hsep
    · exact hblank d (by simp) x h
    · exact hsep
    · exact hblank e (by simp) x h
  rw [trim, htrim, String.ofList_toList]
  exact split_eq_five.mpr ⟨rfl, hdot⟩

/-! ## Numbers -/

/-- Decimal digits, the most significant first. -/
def digitsValue (l : List Char) : Nat := l.foldl (fun n c => n * 10 + (c.toNat - 48)) 0

/-- An unsigned number of at most `max`: digits, after one optional plus sign. -/
def parseUint (max : Nat) (s : String) : Option Nat :=
  let digits := match s.toList with
    | '+' :: ds => ds
    | ds => ds
  if !digits.isEmpty && digits.all Char.isDigit && digitsValue digits ≤ max then
    some (digitsValue digits)
  else none

theorem toString_injective {m n : Nat} (h : toString m = toString n) : m = n := by
  have hdigits : Nat.toDigits 10 m = Nat.toDigits 10 n := String.ofList_injective h
  calc m
      = Nat.ofDigitChars 10 (Nat.toDigits 10 m) 0 := Nat.ofDigitChars_ten_toDigits.symm
    _ = Nat.ofDigitChars 10 (Nat.toDigits 10 n) 0 := by rw [hdigits]
    _ = n := Nat.ofDigitChars_ten_toDigits

theorem digitsValue_toDigits (n : Nat) : digitsValue (Nat.toDigits 10 n) = n := by
  have hfold : ∀ (l : List Char) (m : Nat),
      l.foldl (fun n c => n * 10 + (c.toNat - 48)) m = Nat.ofDigitChars 10 l m := by
    intro l
    induction l with
    | nil => intro m; rfl
    | cons c l ih =>
      intro m
      rw [List.foldl_cons, ih, Nat.ofDigitChars_cons, Nat.mul_comm]
      rfl
  rw [digitsValue, hfold, Nat.ofDigitChars_ten_toDigits]

/-- A printed number is read back as itself, if the type is wide enough for it. -/
theorem parseUint_toString (max n : Nat) :
    parseUint max (toString n) = if n ≤ max then some n else none := by
  have hchars : (toString n).toList = Nat.toDigits 10 n := Nat.toList_repr
  have hdigits : (Nat.toDigits 10 n).all Char.isDigit = true :=
    List.all_eq_true.mpr (fun c hc => Nat.isDigit_of_mem_toDigits (by decide) (by decide) hc)
  have hne : (Nat.toDigits 10 n).isEmpty = false := by simp
  rw [parseUint, hchars]
  split
  · -- a sign would be the first digit
    next ds hsign =>
    rw [hsign] at hdigits
    simp at hdigits
  · rw [hne, hdigits, digitsValue_toDigits]
    simp

theorem stripPrefix_append (front s : String) : stripPrefix (front ++ s) front = some s := by
  have hpre : front.toList.isPrefixOf (front ++ s).toList = true := by
    rw [List.isPrefixOf_iff_prefix, String.toList_append]
    exact List.prefix_append _ _
  rw [stripPrefix, if_pos hpre, String.toList_append, ← String.length_toList, List.drop_left,
    String.ofList_toList]

theorem stripSuffix_append (s back : String) : stripSuffix (s ++ back) back = some s := by
  have hsuf : back.toList.isSuffixOf (s ++ back).toList = true := by
    rw [List.isSuffixOf_iff_suffix, String.toList_append]
    exact List.suffix_append _ _
  have hlen : (s ++ back).length - back.length = s.toList.length := by
    rw [String.length_append, Nat.add_sub_cancel, String.length_toList]
  rw [stripSuffix, if_pos hsuf, hlen, String.toList_append, List.take_left, String.ofList_toList]

/-! ## Bytes as text -/

def utf8 (s : String) : Bytes := s.toUTF8.toList

def isContinuation (b : UInt8) : Bool := 0x80 ≤ b && b ≤ 0xBF

/-- Which second bytes may follow the lead byte of a three-byte sequence. -/
def second3 (lead b : UInt8) : Bool :=
  if lead = 0xE0 then 0xA0 ≤ b && b ≤ 0xBF
  else if lead = 0xED then 0x80 ≤ b && b ≤ 0x9F
  else isContinuation b

/-- Which second bytes may follow the lead byte of a four-byte sequence. -/
def second4 (lead b : UInt8) : Bool :=
  if lead = 0xF0 then 0x90 ≤ b && b ≤ 0xBF
  else if lead = 0xF4 then 0x80 ≤ b && b ≤ 0x8F
  else isContinuation b

/-- The character a well-formed sequence encodes: the lead's payload bits, then six per byte. -/
def utf8Char (lead : Nat) (conts : List UInt8) : Char :=
  Char.ofNat (conts.foldl (fun n b => n * 64 + b.toNat % 64) lead)

/-- The first character of the bytes and how many further bytes it takes; an
ill-formed piece is U+FFFD over its longest prefix that could have gone on. -/
def lossyStep (b : UInt8) (rest : Bytes) : Char × Nat :=
  if b < 0x80 then (Char.ofNat b.toNat, 0)
  else if 0xC2 ≤ b && b ≤ 0xDF then
    match rest with
    | c :: _ => if isContinuation c then (utf8Char (b.toNat % 32) [c], 1) else ('\uFFFD', 0)
    | [] => ('\uFFFD', 0)
  else if 0xE0 ≤ b && b ≤ 0xEF then
    match rest with
    | c :: d :: _ =>
      if !second3 b c then ('\uFFFD', 0)
      else if !isContinuation d then ('\uFFFD', 1)
      else (utf8Char (b.toNat % 16) [c, d], 2)
    | [c] => ('\uFFFD', if second3 b c then 1 else 0)
    | [] => ('\uFFFD', 0)
  else if 0xF0 ≤ b && b ≤ 0xF4 then
    match rest with
    | c :: d :: e :: _ =>
      if !second4 b c then ('\uFFFD', 0)
      else if !isContinuation d then ('\uFFFD', 1)
      else if !isContinuation e then ('\uFFFD', 2)
      else (utf8Char (b.toNat % 8) [c, d, e], 3)
    | [c, d] => ('\uFFFD', if !second4 b c then 0 else if !isContinuation d then 1 else 2)
    | [c] => ('\uFFFD', if second4 b c then 1 else 0)
    | [] => ('\uFFFD', 0)
  else ('\uFFFD', 0)

-- The fuel is the number of bytes: every step consumes at least one.
def lossyChars : Nat → Bytes → List Char
  | _, [] => []
  | 0, _ :: _ => []
  | n + 1, b :: rest =>
    let step := lossyStep b rest
    step.1 :: lossyChars n (rest.drop step.2)

def fromUtf8Lossy (bytes : Bytes) : String := String.ofList (lossyChars bytes.length bytes)

-- A letter, a two-byte letter, and a sequence cut off after two of its three bytes.
example : fromUtf8Lossy [0x61, 0xC3, 0xA9, 0xE2, 0x82] = "aé\uFFFD" := by decide

theorem toList_loop (b : ByteArray) (i : Nat) (r : List UInt8) :
    ByteArray.toList.loop b i r = r.reverse ++ b.data.toList.drop i := by
  fun_induction ByteArray.toList.loop b i r with
  | case1 i r h ih =>
    have hi : i < b.data.toList.length := h
    have hget : b.get! i = b.data.toList[i] := by
      change b.data[i]! = _
      rw [getElem!_pos b.data i h]
      rfl
    rw [ih, List.drop_eq_getElem_cons hi, hget, List.reverse_cons, List.append_assoc]
    rfl
  | case2 i r h =>
    have hi : b.data.toList.length ≤ i := Nat.le_of_not_lt h
    rw [List.drop_eq_nil_of_le hi, List.append_nil]

/-- Strict decoding: ill-formed bytes are refused. -/
def fromUtf8 (bytes : Bytes) : Option String := String.fromUTF8? ⟨bytes.toArray⟩

theorem fromUtf8_utf8 (s : String) : fromUtf8 (utf8 s) = some s := by
  have hbytes : (⟨(utf8 s).toArray⟩ : ByteArray) = s.toUTF8 := by
    rw [utf8, ByteArray.toList, toList_loop, List.reverse_nil, List.nil_append, List.drop_zero,
      Array.toArray_toList]
  rw [fromUtf8, hbytes, String.fromUTF8?, dif_pos (show s.toUTF8.IsValidUTF8 from s.isValidUTF8)]
  rfl

theorem utf8_injective {s s' : String} (h : utf8 s = utf8 s') : s = s' := by
  have hback := congrArg fromUtf8 h
  rw [fromUtf8_utf8, fromUtf8_utf8] at hback
  exact Option.some.inj hback

theorem utf8_ne_nil {s : String} (h : s ≠ "") : utf8 s ≠ [] := by
  have hempty : utf8 "" = [] := by simp [utf8]
  intro hnil
  exact h (utf8_injective (hnil.trans hempty.symm))

end Text
