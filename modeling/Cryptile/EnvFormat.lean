import Cryptile.Export

/-
  EnvFormat — the env export as text, and what its reader gets back

  Stdout is one text: every line with a newline after it. A reader cuts it at the
  newlines, each line at its first `=`, and undoes the escapes. Keys hold neither
  newline nor `=`, values no bare newline, so every cut falls where the writer
  made it. `FreshLoop` is the loop of `mangle_env_key` without a bound on its
  turns: it exits, with a counter that is at most the number of fields before.
-/

namespace Cryptile
open Text Interaction

/-! ## The loop over the candidates -/

/-- The loop entered with counter `n` exits with counter `k`. -/
inductive FreshLoop (seen : FieldBag) (base : String) : Nat → Nat → Prop
  | exit {n} : envCandidate base n ∉ seen → FreshLoop seen base n n
  | next {n k} : envCandidate base n ∈ seen → FreshLoop seen base (n + 1) k → FreshLoop seen base n k

/-- The keys taken by the fields before. -/
def taken (seen : FieldBag) (fields : List (String × String)) : FieldBag :=
  fields.foldl (fun seen p => (mangleEnvKey p.1 seen).2) seen

/-- Taken candidates are passed one after the other, up to the first free one. -/
theorem FreshLoop.of_free {seen : FieldBag} {base : String} {k : Nat} (hfree : envCandidate base k ∉ seen)
    (j : Nat) : ∀ n, n + j = k → (∀ i, n ≤ i → i < k → envCandidate base i ∈ seen) →
      FreshLoop seen base n k := by
  induction j with
  | zero =>
    intro n hn _
    obtain rfl : n = k := by omega
    exact .exit hfree
  | succ j ih =>
    intro n hn htaken
    apply FreshLoop.next (htaken n (Nat.le_refl n) (by omega))
    exact ih (n + 1) (by omega) (fun i hi hlt => htaken i (by omega) hlt)

theorem FreshLoop.unique {seen : FieldBag} {base : String} {n k k' : Nat}
    (h : FreshLoop seen base n k) (h' : FreshLoop seen base n k') : k = k' := by
  induction h with
  | exit hfree =>
    cases h' with
    | exit _ => rfl
    | next htaken _ => exact absurd htaken hfree
  | next htaken _ ih =>
    cases h' with
    | exit hfree => exact absurd htaken hfree
    | next _ h' => exact ih h'

/-- The loop ends, and its last candidate is the key. -/
theorem mangleEnvKey_loop (name : String) (seen : FieldBag) :
    ∃ k, FreshLoop seen (envKeyBase name) 0 k ∧ k ≤ seen.size ∧
      (mangleEnvKey name seen).1 = envCandidate (envKeyBase name) k := by
  obtain ⟨k, he, -, hub, htaken, -⟩ := freshKey_eq seen (envKeyBase name) (seen.size + 1) 0
  have hfree : envCandidate (envKeyBase name) k ∉ seen := by
    rw [← he]
    exact freshKey_not_mem seen (envKeyBase name)
  refine ⟨k, FreshLoop.of_free hfree k 0 (Nat.zero_add k) htaken, ?_, he⟩
  -- the candidates before are distinct keys that are taken
  have hsub : ((List.range k).map (envCandidate (envKeyBase name))).Subperm seen.keys := by
    apply List.subperm_of_subset (List.nodup_range.map (fun _ _ => envCandidate_injective))
    intro c hc
    obtain ⟨j, hj, rfl⟩ := List.mem_map.mp hc
    exact Std.ExtTreeMap.mem_keys.mpr (htaken j (Nat.zero_le j) (List.mem_range.mp hj))
  calc k = ((List.range k).map (envCandidate (envKeyBase name))).length := by simp
    _ ≤ seen.keys.length := hsub.length_le
    _ = seen.size := Std.ExtTreeMap.length_keys

theorem taken_size (fields : List (String × String)) (seen : FieldBag) :
    (taken seen fields).size = seen.size + fields.length := by
  induction fields generalizing seen with
  | nil => rfl
  | cons p fields ih =>
    have hfree : (mangleEnvKey p.1 seen).1 ∉ seen := freshKey_not_mem seen _
    have hsize : (mangleEnvKey p.1 seen).2.size = seen.size + 1 := by
      calc (mangleEnvKey p.1 seen).2.size
          = (seen.insert (mangleEnvKey p.1 seen).1 p.1).size := rfl
        _ = seen.size + 1 := by simp [Std.ExtTreeMap.size_insert, hfree]
    calc (taken seen (p :: fields)).size
        = (taken (mangleEnvKey p.1 seen).2 fields).size := rfl
      _ = seen.size + (p :: fields).length := by
        rw [ih, hsize, List.length_cons]
        omega

/-! ## The characters of a key -/

/-- A character an environment key may have: A–Z, 0–9 or the underscore. -/
def isEnvKeyChar (c : Char) : Bool := c.isUpper || c.isDigit || c == '_'

/-- A name the shell takes for a variable's, but for a leading digit. -/
def EnvKey (k : String) : Prop := k ≠ "" ∧ ∀ c ∈ k.toList, isEnvKeyChar c = true

theorem isLower_iff (c : Char) : c.isLower = true ↔ 97 ≤ c.val.toNat ∧ c.val.toNat ≤ 122 := by
  change (decide (97 ≤ c.val.toNat) && decide (c.val.toNat ≤ 122)) = true ↔ _
  rw [Bool.and_eq_true, decide_eq_true_iff, decide_eq_true_iff]

theorem toUpper_not_lower (c : Char) : c.toUpper.isLower = false := by
  rw [Bool.eq_false_iff, ne_eq, isLower_iff]
  unfold Char.toUpper
  split
  · next h =>
    -- the letter lies 32 above the capital
    have h : 97 ≤ c.val.toNat ∧ c.val.toNat ≤ 122 := h
    have hsub : (c.val + ('A'.val - 'a'.val)).toNat = c.val.toNat - 32 := by
      rw [UInt32.toNat_add]
      change (c.val.toNat + 4294967264) % 4294967296 = _
      omega
    change ¬ (97 ≤ (c.val + ('A'.val - 'a'.val)).toNat ∧ (c.val + ('A'.val - 'a'.val)).toNat ≤ 122)
    omega
  · next h => exact h

theorem envKeyBase_chars (name : String) : ∀ c ∈ (envKeyBase name).toList, isEnvKeyChar c = true := by
  intro c hc
  simp only [envKeyBase, toAsciiUppercase, String.toList_ofList, List.map_map, List.mem_map,
    Function.comp_apply] at hc
  obtain ⟨d, _, rfl⟩ := hc
  split
  · next hd =>
    have hd : ((d.toUpper.isUpper || d.toUpper.isLower) || d.toUpper.isDigit) = true := hd
    rw [toUpper_not_lower, Bool.or_false, Bool.or_eq_true] at hd
    rw [isEnvKeyChar, Bool.or_eq_true, Bool.or_eq_true]
    exact .inl hd
  · rfl

theorem envKeyBase_ne {name : String} (h : name ≠ "") : envKeyBase name ≠ "" := by
  intro he
  have hl := congrArg String.toList he
  simp only [envKeyBase, toAsciiUppercase, String.toList_ofList, List.map_map, String.toList_empty,
    List.map_eq_nil_iff] at hl
  exact h (String.toList_eq_nil_iff.mp hl)

theorem envCandidate_envKey {name : String} (h : name ≠ "") (n : Nat) :
    EnvKey (envCandidate (envKeyBase name) n) := by
  unfold envCandidate
  split
  · exact ⟨envKeyBase_ne h, envKeyBase_chars name⟩
  · refine ⟨by simp [envKeyBase_ne h], ?_⟩
    intro c hc
    rw [String.toList_append, String.toList_append, List.mem_append, List.mem_append] at hc
    obtain (hc | hc) | hc := hc
    · exact envKeyBase_chars name c hc
    · obtain rfl : c = '_' := by simpa using hc
      rfl
    · rw [Nat.toString_eq_repr, Nat.toList_repr] at hc
      have hdigit : c.isDigit = true := Nat.isDigit_of_mem_toDigits (by decide) (by decide) hc
      simp [isEnvKeyChar, hdigit]

theorem envEntries_envKey {fields : List (String × String)} (h : ∀ p ∈ fields, p.1 ≠ "")
    (seen : FieldBag) : ∀ k ∈ (envEntries seen fields).map Prod.fst, EnvKey k := by
  induction fields generalizing seen with
  | nil => simp [envEntries]
  | cons p fields ih =>
    rw [envEntries, List.map_cons, List.forall_mem_cons]
    refine ⟨?_, ?_⟩
    · obtain ⟨k, -, -, he⟩ := mangleEnvKey_loop p.1 seen
      rw [he]
      exact envCandidate_envKey (h p (List.mem_cons_self ..)) k
    · exact ih (fun q hq => h q (List.mem_cons_of_mem p hq)) _

/-! ## The text on stdout -/

/-- What the lines of a run make of stdout: each ends in a newline. -/
def stdoutText (tr : CliTrace) : String :=
  String.ofList ((stdoutOf tr).flatMap (fun line => line.toList ++ ['\n']))

/-- The lines of a text: what stands before each newline. -/
def textLines (text : String) : List String := (split text '\n').dropLast

theorem splitList_lines (lines : List (List Char)) (h : ∀ line ∈ lines, '\n' ∉ line) :
    splitList '\n' (lines.flatMap (fun line => line ++ ['\n'])) = lines ++ [[]] := by
  induction lines with
  | nil => rfl
  | cons line lines ih =>
    have hline : '\n' ∉ line := h line (List.mem_cons_self ..)
    calc splitList '\n' ((line :: lines).flatMap (fun line => line ++ ['\n']))
        = splitList '\n' (line ++ '\n' :: lines.flatMap (fun line => line ++ ['\n'])) := by simp
      _ = line :: splitList '\n' (lines.flatMap (fun line => line ++ ['\n'])) := splitList_cons hline
      _ = line :: lines ++ [[]] := by
        rw [ih (fun l hl => h l (List.mem_cons_of_mem line hl))]
        rfl

theorem textLines_stdoutText {tr : CliTrace} (h : ∀ line ∈ stdoutOf tr, '\n' ∉ line.toList) :
    textLines (stdoutText tr) = stdoutOf tr := by
  have hsplit := splitList_lines ((stdoutOf tr).map String.toList) (by simpa using h)
  rw [List.flatMap_map] at hsplit
  calc textLines (stdoutText tr)
      = ((((stdoutOf tr).map String.toList) ++ [[]]).map String.ofList).dropLast := by
        rw [textLines, split, stdoutText, String.toList_ofList, hsplit]
    _ = ((stdoutOf tr).map String.toList).map String.ofList := by
        rw [List.map_append, List.map_singleton, List.dropLast_concat]
    _ = stdoutOf tr := by simp

theorem escapeEnvValue_no_newline (v : String) : '\n' ∉ (escapeEnvValue v).toList := by
  rw [escapeEnvValue_toList, List.mem_flatMap]
  intro h
  obtain ⟨c, _, hc⟩ := h
  split at hc
  · simp at hc
  · split at hc
    · simp at hc
    · next hn => exact hn (List.mem_singleton.mp hc).symm

theorem envLine_no_newline {p : String × String} (h : EnvKey p.1) : '\n' ∉ (envLine p).toList := by
  simp only [envLine, String.toList_append, List.mem_append, not_or]
  refine ⟨⟨?_, by decide⟩, escapeEnvValue_no_newline p.2⟩
  intro hc
  exact absurd (h.2 '\n' hc) (by decide)

/-! ## The round trip -/

/-- What a reader of the env export of some fields gets, from the text on stdout. -/
structure EnvDecodes (fields : List (String × String)) (text : String) : Prop where
  terminates : ∀ before p after, fields = before ++ p :: after →
    ∃ n, FreshLoop (taken ∅ before) (envKeyBase p.1) 0 n ∧ n < 0x80000000 ∧
      (mangleEnvKey p.1 (taken ∅ before)).1 = envCandidate (envKeyBase p.1) n
  distinct : ((envEntries ∅ fields).map Prod.fst).Nodup
  keys : ∀ k ∈ (envEntries ∅ fields).map Prod.fst, EnvKey k
  values : (envEntries ∅ fields).map Prod.snd = fields.map Prod.snd
  decoded : (textLines text).map readEnvLine = (envEntries ∅ fields).map some

/-- The env export is read back: one entry per field, in order, with its value. -/
theorem env_export_decodes (renderJson : FieldBag → String) (format : String) (secrets : List Secret)
    (tr : CliTrace) (code : ExitCode) (hformat : format ≠ "json")
    (hfew : (exportedFields secrets).length < 0x80000000)
    (hnames : ∀ p ∈ exportedFields secrets, p.1 ≠ "")
    (hnul : ∀ p ∈ exportedFields secrets, hasNul p.2 = false)
    (h : Runs (emitExport renderJson format secrets) tr code) :
    code = .success ∧ EnvDecodes (exportedFields secrets) (stdoutText tr) := by
  rw [emitExport, if_neg hformat] at h
  obtain ⟨hlines, hcode⟩ := printEnv_runs h
  rw [takeWhile_envEntries hnul] at hlines
  have hkeys := envEntries_envKey hnames ∅
  refine ⟨?_, ?_, (envEntries_keys_nodup _ ∅).1, hkeys, envEntries_values _ ∅, ?_⟩
  · rw [hcode, if_neg]
    simpa using hnul
  · intro before p after hsplit
    obtain ⟨k, hloop, hle, he⟩ := mangleEnvKey_loop p.1 (taken ∅ before)
    refine ⟨k, hloop, ?_, he⟩
    have hsize := taken_size before ∅
    have hlen : before.length < (exportedFields secrets).length := by
      rw [hsplit, List.length_append, List.length_cons]
      omega
    simp only [Std.ExtTreeMap.size_empty] at hsize
    omega
  · rw [textLines_stdoutText, hlines, readEnvLine_envEntries]
    intro line hline
    rw [hlines] at hline
    obtain ⟨p, hp, rfl⟩ := List.mem_map.mp hline
    exact envLine_no_newline (hkeys p.1 (List.mem_map_of_mem hp))

theorem env_export_decodes_twoLogins :
    ExitCode.success = .success ∧ EnvDecodes (exportedFields twoLogins) (stdoutText twoLoginsEnv) :=
  env_export_decodes (fun _ => "json") "env" twoLogins twoLoginsEnv .success (by decide) (by decide)
    (by decide) (by decide) (runs_of_replay (by decide))

end Cryptile
