import Cryptile.Core

/-
  RefGrammar — which texts are references, and what a printed one is read back as

  A reference is a known scheme in any letter case, `://`, a locus and perhaps a
  fragment. Both cuts fall on the first occurrence of their separator: no known
  scheme holds a colon, a locus ends at the first `#`, and a field takes the rest.
  Printing always writes the fragment, so what is read back is explicit.
-/

namespace Cryptile
open Text

/-- What is written after a locus: nothing, or the fragment. -/
def fragment : Option String → String
  | none => ""
  | some field => "#" ++ field

/-- `scheme://locus[#field]`, cut at the first `://`. -/
structure RefText (s scheme locus : String) (field : Option String) : Prop where
  cut : FirstCut "://".toList s.toList scheme.toList (locus ++ fragment field).toList
  known : ∃ name ∈ knownSchemes, eqIgnoreAsciiCase scheme name = true
  locusNonempty : locus ≠ ""
  locusPlain : '#' ∉ locus.toList
  fieldNonempty : field ≠ some ""

/-! ## The scheme -/

theorem knownSchemes_lowercase {name : String} (h : name ∈ knownSchemes) :
    name.toList.map Char.toLower = name.toList ∧ ':' ∉ name.toList := by
  simp only [knownSchemes, List.mem_cons, List.not_mem_nil, or_false] at h
  rcases h with rfl | rfl | rfl <;> decide

/-- Any letter case of a known scheme folds to it. -/
theorem known_iff (scheme : String) :
    knownSchemes.contains (toAsciiLowercase scheme) = true ↔
      ∃ name ∈ knownSchemes, eqIgnoreAsciiCase scheme name = true := by
  have hfold : ∀ name ∈ knownSchemes,
      (eqIgnoreAsciiCase scheme name = true ↔ toAsciiLowercase scheme = name) := by
    intro name hname
    rw [eqIgnoreAsciiCase, beq_iff_eq, (knownSchemes_lowercase hname).1, toAsciiLowercase,
      ← String.toList_inj, String.toList_ofList]
  rw [List.contains_iff_mem]
  refine ⟨?_, ?_⟩
  · intro h
    exact ⟨_, h, (hfold _ h).mpr rfl⟩
  · intro h
    obtain ⟨name, hname, heq⟩ := h
    rw [(hfold name hname).mp heq]
    exact hname

/-! ## Reading -/

section Reading
variable {s scheme rest : String} (hcut : splitOnce s "://" = some (scheme, rest))
  (hknown : knownSchemes.contains (toAsciiLowercase scheme) = true)
include hcut hknown

theorem parse_explicit {locus field : String} (hfrag : splitOnce rest "#" = some (locus, field)) :
    Ref.parse s = if locus.isEmpty then .error .emptyLocus
      else if field.isEmpty then .error .emptyField
      else .ok ⟨toAsciiLowercase scheme, locus, field, true⟩ := by
  simp only [Ref.parse, hcut, hknown, hfrag, Bool.not_true, Bool.false_eq_true, if_false]
  cases locus.isEmpty <;> cases field.isEmpty <;> rfl

theorem parse_defaulted (hfrag : splitOnce rest "#" = none) :
    Ref.parse s = if rest.isEmpty then .error .emptyLocus
      else .ok ⟨toAsciiLowercase scheme, rest, Ref.defaultField, false⟩ := by
  have hdefault : Ref.defaultField.isEmpty = false := by decide
  simp only [Ref.parse, hcut, hknown, hfrag, hdefault, Bool.not_true, Bool.false_eq_true, if_false]
  cases rest.isEmpty <;> rfl

end Reading

/-- What a parsed reference was cut out of. -/
theorem parse_cut {s : String} {r : Ref} (h : Ref.parse s = .ok r) :
    ∃ scheme rest, splitOnce s "://" = some (scheme, rest) ∧
      knownSchemes.contains (toAsciiLowercase scheme) = true := by
  cases hcut : splitOnce s "://" with
  | none =>
    simp only [Ref.parse, hcut] at h
    cases h
  | some p =>
    refine ⟨p.1, p.2, rfl, ?_⟩
    cases hknown : knownSchemes.contains (toAsciiLowercase p.1) with
    | true => rfl
    | false =>
      simp only [Ref.parse, hcut, hknown, Bool.not_false, if_true] at h
      cases h

/-- A text of the grammar is read as the parts written in it. -/
theorem RefText.parse {s scheme locus : String} {field : Option String}
    (h : RefText s scheme locus field) :
    Ref.parse s =
      .ok ⟨toAsciiLowercase scheme, locus, field.getD Ref.defaultField, field.isSome⟩ := by
  have hcut : splitOnce s "://" = some (scheme, locus ++ fragment field) := splitOnce_eq_some.mpr h.cut
  have hknown := (known_iff scheme).mpr h.known
  have hlocus : ¬ locus.isEmpty = true := by simpa using h.locusNonempty
  cases field with
  | none =>
    have hrest : locus ++ fragment none = locus := by rw [fragment, String.append_empty]
    have hfrag : splitOnce locus "#" = none :=
      (splitOnce_char_eq_none (x := '#') rfl).mpr h.locusPlain
    rw [hrest] at hcut
    rw [parse_defaulted hcut hknown hfrag, if_neg hlocus]
    rfl
  | some f =>
    have hfrag : splitOnce (locus ++ fragment (some f)) "#" = some (locus, f) :=
      (splitOnce_char_eq_some rfl).mpr ⟨by rw [fragment, String.append_assoc], h.locusPlain⟩
    have hf : ¬ f.isEmpty = true := by simpa using h.fieldNonempty
    rw [parse_explicit hcut hknown hfrag, if_neg hlocus, if_neg hf]
    rfl

/-- What is read as a reference is a text of the grammar. -/
theorem parse_refText {s : String} {r : Ref} (h : Ref.parse s = .ok r) :
    ∃ scheme field, RefText s scheme r.locus field := by
  obtain ⟨scheme, rest, hcut, hknown⟩ := parse_cut h
  have hfirst : FirstCut "://".toList s.toList scheme.toList rest.toList := splitOnce_eq_some.mp hcut
  have hscheme := (known_iff scheme).mp hknown
  cases hfrag : splitOnce rest "#" with
  | none =>
    rw [parse_defaulted hcut hknown hfrag] at h
    split at h
    · cases h
    next hlocus =>
      obtain rfl := Except.ok.inj h
      refine ⟨scheme, none, ?_, hscheme, by simpa using hlocus, ?_, nofun⟩
      · rwa [fragment, String.append_empty]
      · exact (splitOnce_char_eq_none rfl).mp hfrag
  | some p =>
    obtain ⟨hrest, hplain⟩ := (splitOnce_char_eq_some (x := '#') rfl).mp hfrag
    rw [parse_explicit hcut hknown hfrag] at h
    split at h
    · cases h
    next hlocus =>
      split at h
      · cases h
      next hfield =>
        obtain rfl := Except.ok.inj h
        refine ⟨scheme, some p.2, ?_, hscheme, by simpa using hlocus, hplain, by simpa using hfield⟩
        rwa [hrest, String.append_assoc] at hfirst

/-! ## Printing -/

/-- The scheme of a parsed reference is one of the known ones, its field is not empty. -/
theorem parse_parts {s : String} {r : Ref} (h : Ref.parse s = .ok r) :
    r.scheme ∈ knownSchemes ∧ r.field ≠ "" := by
  obtain ⟨scheme, field, htext⟩ := parse_refText h
  have hr := Except.ok.inj (h.symm.trans htext.parse)
  rw [hr]
  refine ⟨List.contains_iff_mem.mp ((known_iff scheme).mpr htext.known), ?_⟩
  cases field with
  | none => exact show Ref.defaultField ≠ "" by decide
  | some f => simpa using htext.fieldNonempty

theorem parse_scheme_lowercase {s : String} {r : Ref} (h : Ref.parse s = .ok r) :
    toAsciiLowercase r.scheme = r.scheme := by
  rw [← String.toList_inj, toAsciiLowercase, String.toList_ofList]
  exact (knownSchemes_lowercase (parse_parts h).1).1

/-- The printed reference is in the grammar, with its field written. -/
theorem display_refText {s : String} {r : Ref} (h : Ref.parse s = .ok r) :
    RefText r.display r.scheme r.locus (some r.field) := by
  obtain ⟨hmem, hfield⟩ := parse_parts h
  obtain ⟨scheme, field, htext⟩ := parse_refText h
  have hcolon : ':' ∉ r.scheme.toList := (knownSchemes_lowercase hmem).2
  have hself : eqIgnoreAsciiCase r.scheme r.scheme = true := by rw [eqIgnoreAsciiCase, beq_self_eq_true]
  refine ⟨?_, ⟨r.scheme, hmem, hself⟩, htext.locusNonempty, htext.locusPlain, by simpa using hfield⟩
  have hdisplay : r.display = r.scheme ++ ("://" ++ (r.locus ++ ("#" ++ r.field))) := by
    simp only [Ref.display, String.append_assoc]
  rw [hdisplay, String.toList_append, String.toList_append]
  exact firstCut_of_not_mem hcolon

theorem parse_display {s : String} {r : Ref} (h : Ref.parse s = .ok r) :
    Ref.parse r.display = .ok { r with fieldExplicit := true } := by
  rw [(display_refText h).parse, parse_scheme_lowercase h]
  rfl

/-- Printing `r` and reading it back keeps its parts, with the field now explicit. -/
structure ReadBack (r r' : Ref) : Prop where
  reads : Ref.parse r.display = .ok r'
  lowercase : toAsciiLowercase r'.scheme = r'.scheme
  scheme : r'.scheme = r.scheme
  locus : r'.locus = r.locus
  field : r'.field = r.field
  explicit : r'.fieldExplicit = true
  same : r.fieldExplicit = true → r' = r
  display : r'.display = r.display

theorem parse_accepts_readsBack (s : String) :
    ((∃ r, Ref.parse s = .ok r) ↔ ∃ scheme locus field, RefText s scheme locus field) ∧
    ∀ r, Ref.parse s = .ok r → ∃ r', ReadBack r r' := by
  refine ⟨⟨?_, ?_⟩, ?_⟩
  · intro h
    obtain ⟨r, hr⟩ := h
    obtain ⟨scheme, field, htext⟩ := parse_refText hr
    exact ⟨scheme, r.locus, field, htext⟩
  · intro h
    obtain ⟨scheme, locus, field, htext⟩ := h
    exact ⟨_, htext.parse⟩
  · intro r h
    have hlower := parse_scheme_lowercase h
    refine ⟨{ r with fieldExplicit := true }, parse_display h, hlower, rfl, rfl, rfl, rfl, ?_, rfl⟩
    intro hexplicit
    cases r
    subst hexplicit
    rfl

end Cryptile
