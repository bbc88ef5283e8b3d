import Cryptile.Lib.JsonPrint
import Cryptile.Lib.Text

/-
  Serde — records read from JSON values, field by field

  A record is read from an object by the names of its fields, or from an array by
  their positions. A field says what its names are, how its value is decoded, and what
  it is where the object has no member of its name or the array ends before it. A
  name that stands twice is refused, a name that is no field's is not looked at.

  `NullBlind` is what tolerance of nulls comes to: the decoder cannot tell a value from
  the same value without the null members of its objects, at any depth. It is a
  property of each field (`Field.NullBlind`), and records, lists and options inherit it
  from what they are made of.
-/

namespace Serde
open JsonText Text

/-! ## Scalars and containers -/

def string : Value → Option String
  | .string s => some s
  | _ => none

/-- An unsigned number below the bound: digits only, no sign, fraction or exponent. -/
def uint (bound : Nat) : Value → Option Nat
  | .number text =>
    if text.toList.all Char.isDigit && digitsValue text.toList < bound then
      some (digitsValue text.toList)
    else none
  | _ => none

def option {α : Type} (d : Value → Option α) : Value → Option (Option α)
  | .null => some none
  | v => (d v).map some

def vec {α : Type} (d : Value → Option α) : Value → Option (List α)
  | .array vs => vs.mapM d
  | _ => none

/-- A null is the default, as an absent member is. -/
def nullToDefault {α : Type} (default : α) (d : Value → Option α) : Value → Option α :=
  fun v => (option d v).map (fun a => a.getD default)

/-! ## Records -/

structure Field (α : Type) where
  names : List String
  decode : Value → Option α
  /-- What it is where an object has no member of its names. -/
  absent : Option α
  /-- What it is where an array ends before it. -/
  cut : Option α

/-- A field that must be there. -/
def required {α : Type} (name : String) (d : Value → Option α) : Field α where
  names := [name]
  decode := d
  absent := none
  cut := none

/-- A field that has a default. -/
def defaulted {α : Type} (names : List String) (default : α) (d : Value → Option α) : Field α where
  names := names
  decode := d
  absent := some default
  cut := some default

/-- An `Option` without a default: an object may leave it out, an array may not. -/
def omittable {α : Type} (name : String) (d : Value → Option α) : Field (Option α) where
  names := [name]
  decode := option d
  absent := some none
  cut := none

/-- What a record of `n` fields is read from. -/
inductive Source where
  | map (members : List (String × Value))
  | seq (elements : List Value)

def source (n : Nat) : Value → Option Source
  | .object members => some (.map members)
  | .array elements => if elements.length ≤ n then some (.seq elements) else none
  | _ => none

/-- The members that have one of the names. -/
def named (names : List String) (members : List (String × Value)) : List (String × Value) :=
  members.filter (fun m => m.1 ∈ names)

/-- The field at a position of the record. -/
def Source.get {α : Type} (position : Nat) (f : Field α) : Source → Option α
  | .map members =>
    match named f.names members with
    | [] => f.absent
    | [m] => f.decode m.2
    | _ => none
  | .seq elements =>
    match elements[position]? with
    | some v => f.decode v
    | none => f.cut

/-! ## Values without their nulls -/

def isNull : Value → Bool
  | .null => true
  | _ => false

mutual

/-- The value without the null members of its objects. -/
def dropNulls : Value → Value
  | .array vs => .array (dropElements vs)
  | .object ms => .object (dropMembers ms)
  | .null => .null
  | .bool b => .bool b
  | .number text => .number text
  | .string s => .string s
  | .undecoded => .undecoded

def dropElements : List Value → List Value
  | [] => []
  | v :: vs => dropNulls v :: dropElements vs

def dropMembers : List (String × Value) → List (String × Value)
  | [] => []
  | (key, v) :: ms => if isNull v then dropMembers ms else (key, dropNulls v) :: dropMembers ms

end

/-- No object of the value has a key twice. -/
inductive KeysDistinct : Value → Prop
  | null : KeysDistinct .null
  | bool (b : Bool) : KeysDistinct (.bool b)
  | number (text : String) : KeysDistinct (.number text)
  | string (s : String) : KeysDistinct (.string s)
  | undecoded : KeysDistinct .undecoded
  | array {vs : List Value} (h : ∀ v ∈ vs, KeysDistinct v) : KeysDistinct (.array vs)
  | object {ms : List (String × Value)} (keys : (ms.map Prod.fst).Nodup)
      (h : ∀ m ∈ ms, KeysDistinct m.2) : KeysDistinct (.object ms)

@[simp] theorem keysDistinct_null : KeysDistinct .null := .null

@[simp] theorem keysDistinct_string (s : String) : KeysDistinct (.string s) := .string s

@[simp] theorem keysDistinct_array {vs : List Value} :
    KeysDistinct (.array vs) ↔ ∀ v ∈ vs, KeysDistinct v :=
  ⟨fun h => by cases h; assumption, .array⟩

@[simp] theorem keysDistinct_object {ms : List (String × Value)} :
    KeysDistinct (.object ms) ↔ (ms.map Prod.fst).Nodup ∧ ∀ m ∈ ms, KeysDistinct m.2 :=
  ⟨fun h => by cases h; exact ⟨by assumption, by assumption⟩, fun h => .object h.1 h.2⟩

theorem isNull_iff {v : Value} : isNull v = true ↔ v = .null := by
  cases v <;> simp [isNull]

theorem isNull_dropNulls (v : Value) : isNull (dropNulls v) = isNull v := by
  cases v <;> simp [dropNulls, isNull]

theorem dropElements_eq_map (vs : List Value) : dropElements vs = vs.map dropNulls := by
  induction vs with
  | nil => rfl
  | cons v vs ih => rw [dropElements, ih, List.map_cons]

/-- The members of a name, after the nulls are gone. -/
theorem named_dropMembers (names : List String) (ms : List (String × Value)) :
    named names (dropMembers ms) =
      ((named names ms).filter (fun m => !isNull m.2)).map (fun m => (m.1, dropNulls m.2)) := by
  induction ms with
  | nil => rfl
  | cons m ms ih =>
    obtain ⟨key, v⟩ := m
    rw [dropMembers]
    unfold named at ih ⊢
    by_cases hkey : key ∈ names
    · by_cases hnull : isNull v = true <;> simp [hkey, hnull, ih]
    · by_cases hnull : isNull v = true <;> simp [hkey, hnull, ih]

/-- An object without double keys has at most one member of a name. -/
theorem named_single (name : String) {ms : List (String × Value)} (h : (ms.map Prod.fst).Nodup) :
    named [name] ms = [] ∨ ∃ m ∈ ms, named [name] ms = [m] := by
  induction ms with
  | nil => exact Or.inl rfl
  | cons m ms ih =>
    obtain ⟨hm, hms⟩ := List.nodup_cons.mp h
    unfold named at ih ⊢
    by_cases hname : m.1 = name
    · right
      have hnone : ms.filter (fun m => m.1 ∈ [name]) = [] := by
        refine List.filter_eq_nil_iff.mpr ?_
        intro m' hm' hcontains
        have heq : m'.1 = m.1 := by simpa [hname] using hcontains
        exact hm (heq ▸ List.mem_map_of_mem hm')
      refine ⟨m, List.mem_cons_self, ?_⟩
      rw [List.filter_cons_of_pos (by simp [hname]), hnone]
    · have hskip : (m :: ms).filter (fun m => m.1 ∈ [name]) =
          ms.filter (fun m => m.1 ∈ [name]) := by
        simp [hname]
      rw [hskip]
      rcases ih hms with hnone | ⟨m', hm', hone⟩
      · exact Or.inl hnone
      · exact Or.inr ⟨m', List.mem_cons_of_mem m hm', hone⟩

/-! ## Decoders that do not see nulls -/

/-- The decoder cannot tell a value from the value without its null members. -/
def NullBlind {α : Type} (d : Value → Option α) : Prop :=
  ∀ v, KeysDistinct v → d (dropNulls v) = d v

/-- A field of one name, whose null is as good as its absence. -/
structure Field.NullBlind {α : Type} (f : Field α) : Prop where
  name : ∃ name, f.names = [name]
  null : f.decode .null = f.absent
  decode : Serde.NullBlind f.decode

section
variable {α : Type}

theorem string_nullBlind : NullBlind string := by
  intro v _
  cases v <;> rfl

theorem option_nullBlind {d : Value → Option α} (h : NullBlind d) : NullBlind (option d) := by
  intro v hv
  by_cases hnull : v = .null
  · rw [hnull]
    rfl
  · have hsome : ∀ w : Value, w ≠ .null → option d w = (d w).map some := by
      intro w hw
      cases w <;> first | rfl | exact absurd rfl hw
    have hdrop : dropNulls v ≠ .null := by
      intro heq
      have hv : isNull v = true := by rw [← isNull_dropNulls, heq]; rfl
      exact hnull (isNull_iff.mp hv)
    rw [hsome v hnull, hsome _ hdrop, h v hv]

theorem vec_nullBlind {d : Value → Option α} (h : NullBlind d) : NullBlind (vec d) := by
  intro v hv
  cases hv with
  | null => rfl
  | bool b => rfl
  | number text => rfl
  | string s => rfl
  | undecoded => rfl
  | object => rfl
  | @array vs hvs =>
    change (dropElements vs).mapM d = vs.mapM d
    induction vs with
    | nil => rfl
    | cons v vs ih =>
      obtain ⟨hv, hrest⟩ := List.forall_mem_cons.mp hvs
      rw [dropElements, List.mapM_cons, List.mapM_cons, h v hv, ih hrest]

theorem nullToDefault_nullBlind {default : α} {d : Value → Option α} (h : NullBlind d) :
    NullBlind (nullToDefault default d) := by
  intro v hv
  unfold nullToDefault
  rw [option_nullBlind h v hv]

theorem required_nullBlind {name : String} {d : Value → Option α} (h : NullBlind d)
    (hnull : d .null = none) : (required name d).NullBlind :=
  ⟨⟨name, rfl⟩, hnull, h⟩

theorem omittable_nullBlind {name : String} {d : Value → Option α} (h : NullBlind d) :
    (omittable name d).NullBlind :=
  ⟨⟨name, rfl⟩, rfl, option_nullBlind h⟩

theorem defaulted_nullBlind {name : String} {default : α} {d : Value → Option α} (h : NullBlind d)
    (hnull : d .null = some default) : (defaulted [name] default d).NullBlind :=
  ⟨⟨name, rfl⟩, hnull, h⟩

/-- What a source of a value becomes when the value loses its nulls. -/
def Source.dropNulls : Source → Source
  | .map members => .map (dropMembers members)
  | .seq elements => .seq (dropElements elements)

def Source.KeysDistinct : Source → Prop
  | .map members => (members.map Prod.fst).Nodup ∧ ∀ m ∈ members, Serde.KeysDistinct m.2
  | .seq elements => ∀ v ∈ elements, Serde.KeysDistinct v

theorem source_dropNulls (n : Nat) (v : Value) :
    source n (Serde.dropNulls v) = (source n v).map Source.dropNulls := by
  cases v with
  | array vs =>
    simp only [Serde.dropNulls, source, dropElements_eq_map, List.length_map]
    split <;> simp [Source.dropNulls, dropElements_eq_map]
  | _ => simp [Serde.dropNulls, source, Source.dropNulls]

theorem source_keysDistinct {n : Nat} {v : Value} {s : Source} (h : Serde.KeysDistinct v)
    (hs : source n v = some s) : s.KeysDistinct := by
  cases h with
  | object keys hms =>
    cases hs
    exact ⟨keys, hms⟩
  | array hvs =>
    simp only [source] at hs
    split at hs
    · cases hs
      exact hvs
    · cases hs
  | _ => cases hs

theorem Field.NullBlind.get {f : Field α} (h : f.NullBlind) {s : Source} (hs : s.KeysDistinct)
    (position : Nat) : s.dropNulls.get position f = s.get position f := by
  cases s with
  | map members =>
    obtain ⟨hkeys, hvalues⟩ := hs
    obtain ⟨name, hname⟩ := h.name
    rw [Source.dropNulls, Source.get, Source.get, hname, named_dropMembers]
    rcases named_single name hkeys with hnone | ⟨m, hm, hone⟩
    · rw [hnone]
      rfl
    · rw [hone]
      by_cases hnull : m.2 = .null
      · simp [hnull, isNull, h.null]
      · have hnot : isNull m.2 = false := by
          rw [Bool.eq_false_iff]
          exact fun hn => hnull (isNull_iff.mp hn)
        simp [hnot, h.decode m.2 (hvalues m hm)]
  | seq elements =>
    simp only [Source.dropNulls, Source.get, dropElements_eq_map, List.getElem?_map]
    cases helement : elements[position]? with
    | none => rfl
    | some v => exact h.decode v (hs v (List.mem_of_getElem? helement))

/-- A record is blind to nulls where what is made of its source is. -/
theorem record_nullBlind {n : Nat} {build : Source → Option α}
    (h : ∀ s : Source, s.KeysDistinct → build s.dropNulls = build s) :
    NullBlind (fun v => (source n v).bind build) := by
  intro v hv
  cases hs : source n v with
  | none => simp [source_dropNulls, hs]
  | some s => simp [source_dropNulls, hs, h s (source_keysDistinct hv hs)]

end

/-! ## Numbers that are written -/

def ofNat (n : Nat) : Value := .number (toString n)

theorem uint_ofNat {bound n : Nat} (h : n < bound) : uint bound (ofNat n) = some n := by
  have hall : (Nat.toDigits 10 n).all Char.isDigit = true :=
    List.all_eq_true.mpr (fun c hc => Nat.isDigit_of_mem_toDigits (by decide) (by decide) hc)
  simp [ofNat, uint, hall, digitsValue_toDigits, h]

@[simp] theorem printable_ofNat (n : Nat) : Printable (ofNat n) := .number (isNumber_toString n)

def ofOption {α : Type} (f : α → Value) : Option α → Value
  | some a => f a
  | none => .null

theorem option_ofOption {α : Type} {d : Value → Option α} {f : α → Value}
    (hd : ∀ a, d (f a) = some a) (hnull : ∀ a, f a ≠ .null) (x : Option α) :
    option d (ofOption f x) = some x := by
  cases x with
  | none => rfl
  | some a =>
    have hsome : ∀ w : Value, w ≠ .null → option d w = (d w).map some := by
      intro w hw
      cases w <;> first | rfl | exact absurd rfl hw
    rw [ofOption, hsome _ (hnull a), hd]
    rfl

theorem vec_map {α : Type} {d : Value → Option α} {f : α → Value} (hd : ∀ a, d (f a) = some a)
    (l : List α) : vec d (.array (l.map f)) = some l := by
  rw [vec]
  induction l with
  | nil => rfl
  | cons a l ih => rw [List.map_cons, List.mapM_cons, hd, ih]; rfl

end Serde
