import Cryptile.Cli
import Cryptile.Lib.Collect
import Mathlib.Data.List.TakeWhile

/-
  Export — what `export` writes, in either format

  Both formats flatten the field bags of all items into one list of entries. The
  env format prints a line for each, under a key made unique by a suffix, and
  refuses a value with a NUL when it comes to it. The JSON format collects the
  entries into one object, keyed by the field name as it is.

  `envEntries` and `jsonObject` are the entries each format is about to write;
  `emitExport_env` and `emitExport_json` say what of them reaches stdout.

  Correspondence (Rust ↔ Lean):
    `mangle_env_key`                   ↔ `mangleEnvKey`, with `freshKey` for its loop
    `escape_env_value`                 ↔ `escapeEnvValue`
    the `"json"` arm of `Export`       ↔ `jsonObject`
    the other arm                      ↔ `printEnv`
    `serde_json::Value::to_string`     ↔ the parameter `renderJson`
-/

namespace Cryptile
open Text Interaction Collect

/-! ## Keys and values of the env format -/

def envKeyBase (name : String) : String :=
  String.ofList ((toAsciiUppercase name).toList.map (fun c => if c.isAlphanum then c else '_'))

def envCandidate (base : String) (n : Nat) : String :=
  if n = 0 then base else base ++ "__" ++ toString n

/-- The first candidate from `n` on that no earlier field took, looking at `fuel` of them. -/
def freshKey (seen : FieldBag) (base : String) : Nat → Nat → String
  | 0, n => envCandidate base n
  | fuel + 1, n =>
    if seen.contains (envCandidate base n) then freshKey seen base fuel (n + 1)
    else envCandidate base n

-- One more candidate than keys taken: one of them is free (`freshKey_not_mem`).
def mangleEnvKey (name : String) (seen : FieldBag) : String × FieldBag :=
  let candidate := freshKey seen (envKeyBase name) (seen.size + 1) 0
  (candidate, seen.insert candidate name)

def replaceChar (c : Char) (text : String) (s : String) : String :=
  String.ofList (s.toList.flatMap (fun d => if d = c then text.toList else [d]))

def escapeEnvValue (v : String) : String := replaceChar '\n' "\\n" (replaceChar '\\' "\\\\" v)

def hasNul (v : String) : Bool := v.toList.contains '\x00'

/-! ## The emitting programs -/

/-- All fields of all items, in the order they are written. -/
def exportedFields (secrets : List Secret) : List (String × String) :=
  secrets.flatMap (fun s => s.fields.toList)

def jsonObject (secrets : List Secret) : FieldBag :=
  secrets.foldl (fun obj s => s.fields.toList.foldl (fun obj p => obj.insert p.1 p.2) obj) ∅

def printNotes : List String → Cli Unit
  | [] => return ()
  | m :: rest => do
    eprintln (.text ("note: key mangled: " ++ m))
    printNotes rest

/-- Check and print the fields one by one; the renames are reported at the end. -/
def printEnv (seen : FieldBag) (mangling : List String) : List (String × String) → Cli ExitCode
  | [] => do
    printNotes mangling
    return .success
  | (k, v) :: rest => do
    let (envKey, seen) := mangleEnvKey k seen
    let mangling := if envKey ≠ k then mangling ++ [envKey ++ " <- " ++ k] else mangling
    if hasNul v then
      -- the lines of the fields before this one are printed already
      die (.text ("field '" ++ k ++ "' contains NUL; refusing to export")) 6
    else
      println (envKey ++ "=" ++ escapeEnvValue v)
      printEnv seen mangling rest

def emitExport (renderJson : FieldBag → String) (format : String) (secrets : List Secret) :
    Cli ExitCode :=
  if format = "json" then do
    println (renderJson (jsonObject secrets))
    return .success
  else printEnv ∅ [] (exportedFields secrets)

/-! ## What reaches stdout -/

/-- The lines a run prints. -/
def stdoutOf (tr : CliTrace) : List String :=
  tr.filterMap (fun
    | ⟨.println line, _⟩ => some line
    | _ => none)

/-- The entries of the env format: each field under its own key. -/
def envEntries : FieldBag → List (String × String) → List (String × String)
  | _, [] => []
  | seen, (k, v) :: rest =>
    ((mangleEnvKey k seen).1, v) :: envEntries (mangleEnvKey k seen).2 rest

def envLine (p : String × String) : String := p.1 ++ "=" ++ escapeEnvValue p.2

theorem stdoutOf_append (t₁ t₂ : CliTrace) : stdoutOf (t₁ ++ t₂) = stdoutOf t₁ ++ stdoutOf t₂ :=
  List.filterMap_append

def isPrintln : CliReq → Prop
  | .println _ => True
  | _ => False

theorem stdoutOf_silent {tr : CliTrace} (h : ∀ e ∈ tr, ¬ isPrintln e.1) : stdoutOf tr = [] := by
  rw [stdoutOf, List.filterMap_eq_nil_iff]
  rintro ⟨q, x⟩ he
  have hq := h _ he
  cases q <;> first | rfl | exact absurd trivial hq

theorem printNotes_silent (notes : List String) : Asks (fun q => ¬ isPrintln q) (printNotes notes) := by
  induction notes with
  | nil => exact asks_pure _
  | cons m rest ih => exact asks_bind (asks_request (fun h => h)) (fun _ => ih)

theorem stdoutOf_die {msg : Diag} {code c : ExitCode} {tr : CliTrace} (h : Runs (die msg code) tr c) :
    stdoutOf tr = [] ∧ c = code := by
  obtain ⟨x, rest, rfl, rfl, rfl⟩ := h
  exact ⟨rfl, rfl⟩

/-- The env format prints the entries up to the first value with a NUL, and fails
exactly when there is one. -/
theorem printEnv_runs {fields : List (String × String)} {seen : FieldBag} {mangling : List String}
    {tr : CliTrace} {code : ExitCode} (h : Runs (printEnv seen mangling fields) tr code) :
    stdoutOf tr = ((envEntries seen fields).takeWhile (fun p => !hasNul p.2)).map envLine ∧
    code = if fields.any (fun p => hasNul p.2) then 6 else ExitCode.success := by
  induction fields generalizing seen mangling tr with
  | nil =>
    obtain ⟨t₁, _, _, rfl, h₁, rfl, rfl⟩ := runs_bind.mp h
    rw [List.append_nil]
    exact ⟨stdoutOf_silent ((printNotes_silent mangling).runs h₁), rfl⟩
  | cons p fields ih =>
    obtain ⟨k, v⟩ := p
    by_cases hv : hasNul v = true
    · simp only [printEnv, hv, if_true] at h
      obtain ⟨hs, rfl⟩ := stdoutOf_die h
      simp [hs, hv, envEntries]
    · rw [Bool.not_eq_true] at hv
      simp only [printEnv, hv, Bool.false_eq_true, if_false] at h
      obtain ⟨_, rest, rfl, hrest⟩ := runs_request_bind.mp h
      obtain ⟨hs, hc⟩ := ih hrest
      have hcons : stdoutOf (⟨.println ((mangleEnvKey k seen).1 ++ "=" ++ escapeEnvValue v), ()⟩ :: rest)
          = envLine ((mangleEnvKey k seen).1, v) :: stdoutOf rest := rfl
      refine ⟨by simp [hcons, hs, hv, envEntries], ?_⟩
      rw [hc, List.any_cons, hv, Bool.false_or]

/-! ## What is asked for -/

/-- A line of output. -/
def isOutput : CliReq → Prop
  | .println _ | .eprintln _ => True
  | _ => False

theorem die_outputs (msg : Diag) (code : ExitCode) : Asks isOutput (die msg code) :=
  asks_bind (asks_request trivial) (fun _ => asks_pure _)

theorem printNotes_outputs (notes : List String) : Asks isOutput (printNotes notes) := by
  induction notes with
  | nil => exact asks_pure _
  | cons m rest ih => exact asks_bind (asks_request trivial) (fun _ => ih)

theorem printEnv_outputs (fields : List (String × String)) (seen : FieldBag) (mangling : List String) :
    Asks isOutput (printEnv seen mangling fields) := by
  induction fields generalizing seen mangling with
  | nil => exact asks_bind (printNotes_outputs mangling) (fun _ => asks_pure _)
  | cons p fields ih =>
    unfold printEnv
    simp only
    split
    · exact die_outputs _ _
    · exact asks_bind (asks_request trivial) (fun _ => ih _ _)

theorem emitExport_outputs (renderJson : FieldBag → String) (format : String) (secrets : List Secret) :
    Asks isOutput (emitExport renderJson format secrets) := by
  unfold emitExport
  split
  · exact asks_bind (asks_request trivial) (fun _ => asks_pure _)
  · exact printEnv_outputs _ _ _

/-! ## Reading the env format back -/

def unescapeChars : List Char → List Char
  | '\\' :: '\\' :: rest => '\\' :: unescapeChars rest
  | '\\' :: 'n' :: rest => '\n' :: unescapeChars rest
  | c :: rest => c :: unescapeChars rest
  | [] => []

/-- The key and the value a line of the env format gives its reader. -/
def readEnvLine (line : String) : Option (String × String) :=
  (splitOnce line "=").map (fun p => (p.1, String.ofList (unescapeChars p.2.toList)))

theorem escapeEnvValue_toList (v : String) : (escapeEnvValue v).toList = v.toList.flatMap (fun c =>
    if c = '\\' then ['\\', '\\'] else if c = '\n' then ['\\', 'n'] else [c]) := by
  simp only [escapeEnvValue, replaceChar, String.toList_ofList, List.flatMap_assoc]
  congr 1
  funext c
  by_cases hb : c = '\\'
  · subst hb; rfl
  · by_cases hn : c = '\n'
    · subst hn; rfl
    · simp [hb, hn]

theorem unescapeChars_escape (l : List Char) : unescapeChars (l.flatMap (fun c =>
    if c = '\\' then ['\\', '\\'] else if c = '\n' then ['\\', 'n'] else [c])) = l := by
  induction l with
  | nil => rfl
  | cons c l ih =>
    rw [List.flatMap_cons]
    by_cases hb : c = '\\'
    · subst hb; simp [unescapeChars, ih]
    · by_cases hn : c = '\n'
      · subst hn; simp [unescapeChars, ih]
      · simp [unescapeChars, hb, hn, ih]

theorem readEnvLine_envLine {p : String × String} (h : '=' ∉ p.1.toList) :
    readEnvLine (envLine p) = some p := by
  have hs : splitOnceList ['='] (p.1.toList ++ '=' :: (escapeEnvValue p.2).toList) =
      some (p.1.toList, (escapeEnvValue p.2).toList) := splitOnceList_single h
  have hsplit : splitOnce (envLine p) "=" = some (p.1, escapeEnvValue p.2) := by
    simp [splitOnce, envLine, hs]
  simp [readEnvLine, hsplit, escapeEnvValue_toList, unescapeChars_escape]

/-! ## Keys of the env format -/

theorem envKeyBase_no_eq (name : String) : '=' ∉ (envKeyBase name).toList := by
  simp only [envKeyBase, String.toList_ofList, List.mem_map, not_exists, not_and]
  intro c _ he
  split at he
  · next h =>
    rw [he] at h
    exact absurd h (by decide)
  · exact absurd he (by decide)

theorem envCandidate_no_eq (name : String) (n : Nat) :
    '=' ∉ (envCandidate (envKeyBase name) n).toList := by
  unfold envCandidate
  split
  · exact envKeyBase_no_eq name
  · simp only [String.toList_append, List.mem_append, not_or]
    refine ⟨⟨envKeyBase_no_eq name, by decide⟩, ?_⟩
    rw [Nat.toString_eq_repr, Nat.toList_repr]
    intro h
    exact absurd (Nat.isDigit_of_mem_toDigits (by decide) (by decide) h) (by decide)

theorem envCandidate_injective {base : String} {m n : Nat}
    (h : envCandidate base m = envCandidate base n) : m = n := by
  unfold envCandidate at h
  -- a suffix makes the key longer, and two suffixes differ in their digits
  split at h <;> split at h
  · omega
  · have hlen := congrArg String.length h
    have hsep : "__".length = 2 := rfl
    simp only [String.length_append] at hlen
    omega
  · have hlen := congrArg String.length h
    have hsep : "__".length = 2 := rfl
    simp only [String.length_append] at hlen
    omega
  · rw [String.append_right_inj, Nat.toString_eq_repr, Nat.toString_eq_repr] at h
    have hdigits := congrArg (fun s => Nat.ofDigitChars 10 s.toList 0) h
    simpa only [Nat.toList_repr, Nat.ofDigitChars_ten_toDigits] using hdigits

theorem freshKey_eq (seen : FieldBag) (base : String) (fuel n : Nat) :
    ∃ k, freshKey seen base fuel n = envCandidate base k ∧ n ≤ k ∧ k ≤ n + fuel ∧
      (∀ j, n ≤ j → j < k → envCandidate base j ∈ seen) ∧
      (k < n + fuel → envCandidate base k ∉ seen) := by
  induction fuel generalizing n with
  | zero => exact ⟨n, rfl, Nat.le_refl n, Nat.le_refl n, by omega, by omega⟩
  | succ fuel ih =>
    by_cases hn : envCandidate base n ∈ seen
    · obtain ⟨k, he, hle, hub, htaken, hfree⟩ := ih (n + 1)
      refine ⟨k, ?_, by omega, by omega, fun j hj hlt => ?_, fun h => hfree (by omega)⟩
      · simpa [freshKey, hn] using he
      · rcases Nat.eq_or_lt_of_le hj with rfl | hj
        · exact hn
        · exact htaken j hj hlt
    · exact ⟨n, by simp [freshKey, hn], Nat.le_refl n, by omega, by omega, fun _ => hn⟩

/-- The loop ends on a free key: the taken ones are fewer than the candidates. -/
theorem freshKey_not_mem (seen : FieldBag) (base : String) :
    freshKey seen base (seen.size + 1) 0 ∉ seen := by
  obtain ⟨k, he, -, hub, htaken, hfree⟩ := freshKey_eq seen base (seen.size + 1) 0
  rw [he]
  refine hfree ?_
  rcases Nat.lt_or_ge k (0 + (seen.size + 1)) with h | h
  · exact h
  · -- otherwise more distinct candidates than keys are taken
    have hsub : ((List.range (seen.size + 1)).map (envCandidate base)).Subperm seen.keys := by
      refine List.subperm_of_subset (List.nodup_range.map (fun _ _ => envCandidate_injective)) ?_
      intro c hc
      obtain ⟨j, hj, rfl⟩ := List.mem_map.mp hc
      rw [List.mem_range] at hj
      exact Std.ExtTreeMap.mem_keys.mpr (htaken j (Nat.zero_le j) (by omega))
    have hle : seen.size + 1 ≤ seen.size :=
      calc seen.size + 1
          = ((List.range (seen.size + 1)).map (envCandidate base)).length := by simp
        _ ≤ seen.keys.length := hsub.length_le
        _ = seen.size := Std.ExtTreeMap.length_keys
    omega

theorem freshKey_no_eq (seen : FieldBag) (name : String) (fuel n : Nat) :
    '=' ∉ (freshKey seen (envKeyBase name) fuel n).toList := by
  obtain ⟨k, he, -⟩ := freshKey_eq seen (envKeyBase name) fuel n
  rw [he]
  exact envCandidate_no_eq name k

theorem envEntries_no_eq {fields : List (String × String)} {seen : FieldBag} :
    ∀ p ∈ envEntries seen fields, '=' ∉ p.1.toList := by
  induction fields generalizing seen with
  | nil => simp [envEntries]
  | cons q fields ih =>
    intro p hp
    rcases List.mem_cons.mp hp with rfl | hp
    · exact freshKey_no_eq seen q.1 _ _
    · exact ih p hp

theorem envEntries_values (fields : List (String × String)) (seen : FieldBag) :
    (envEntries seen fields).map Prod.snd = fields.map Prod.snd := by
  induction fields generalizing seen with
  | nil => rfl
  | cons q fields ih => simp [envEntries, ih]

/-- No two lines of the env format share a key. -/
theorem envEntries_keys_nodup (fields : List (String × String)) (seen : FieldBag) :
    ((envEntries seen fields).map Prod.fst).Nodup ∧
    ∀ k ∈ (envEntries seen fields).map Prod.fst, k ∉ seen := by
  induction fields generalizing seen with
  | nil => simp [envEntries]
  | cons q fields ih =>
    obtain ⟨hnd, hnew⟩ := ih (mangleEnvKey q.1 seen).2
    have hfree : (mangleEnvKey q.1 seen).1 ∉ seen := freshKey_not_mem seen _
    have hseen : ∀ k, k ∉ (mangleEnvKey q.1 seen).2 → k ≠ (mangleEnvKey q.1 seen).1 ∧ k ∉ seen := by
      intro k hk
      simp only [mangleEnvKey, Std.ExtTreeMap.mem_insert, Std.LawfulEqCmp.compare_eq_iff_eq,
        not_or] at hk
      exact ⟨Ne.symm hk.1, hk.2⟩
    simp only [envEntries, List.map_cons, List.nodup_cons, List.mem_cons]
    refine ⟨⟨fun h => (hseen _ (hnew _ h)).1 rfl, hnd⟩, ?_⟩
    rintro k (rfl | hk)
    · exact hfree
    · exact (hseen k (hnew k hk)).2

/-! ## The two formats -/

theorem jsonObject_eq (secrets : List Secret) : jsonObject secrets = collect (exportedFields secrets) := by
  simp only [jsonObject, collect, collectInto, exportedFields, List.foldl_flatMap]

/-- Nothing is lost between the formats, whose entries are `env` and `json`: every
field of every item has an entry with its value, and the values are the same. -/
structure FormatsAgree (secrets : List Secret) (env json : List (String × String)) : Prop where
  carried : ∀ s ∈ secrets, ∀ p ∈ s.fields.toList, p.2 ∈ json.map Prod.snd
  sameCount : json.length = env.length
  sameValues : (json.map Prod.snd).Perm (env.map Prod.snd)

theorem emitExport_env {renderJson : FieldBag → String} {secrets : List Secret} {tr : CliTrace}
    {code : ExitCode} (h : Runs (emitExport renderJson "env" secrets) tr code) :
    stdoutOf tr = ((envEntries ∅ (exportedFields secrets)).takeWhile (fun p => !hasNul p.2)).map envLine ∧
    code = if (exportedFields secrets).any (fun p => hasNul p.2) then 6 else ExitCode.success :=
  printEnv_runs h

theorem emitExport_json {renderJson : FieldBag → String} {secrets : List Secret} {tr : CliTrace}
    {code : ExitCode} (h : Runs (emitExport renderJson "json" secrets) tr code) :
    stdoutOf tr = [renderJson (jsonObject secrets)] ∧ code = .success := by
  obtain ⟨_, _, rfl, rfl, rfl⟩ := runs_request_bind.mp h
  exact ⟨rfl, rfl⟩

theorem envEntries_length (fields : List (String × String)) (seen : FieldBag) :
    (envEntries seen fields).length = fields.length := by
  have h := congrArg List.length (envEntries_values fields seen)
  simpa using h

/-- The object keeps the values of all fields exactly when no field name repeats. -/
theorem jsonValues_perm_iff (secrets : List Secret) :
    ((jsonObject secrets).toList.map Prod.snd).Perm ((exportedFields secrets).map Prod.snd) ↔
      ((exportedFields secrets).map Prod.fst).Nodup := by
  rw [jsonObject_eq]
  refine ⟨?_, ?_⟩
  · intro h
    have hlen := h.length_eq
    rw [List.length_map, List.length_map, Std.ExtTreeMap.length_toList] at hlen
    exact size_collect_iff.mp hlen
  · intro hnd
    exact (toList_collect_perm hnd).map _

theorem formatsAgree_iff (secrets : List Secret) :
    FormatsAgree secrets (envEntries ∅ (exportedFields secrets)) (jsonObject secrets).toList ↔
      ((exportedFields secrets).map Prod.fst).Nodup := by
  rw [← jsonValues_perm_iff]
  refine ⟨?_, ?_⟩
  · intro h
    have hvalues := h.sameValues
    rwa [envEntries_values] at hvalues
  · intro hperm
    refine ⟨?_, ?_, ?_⟩
    · intro s hs p hp
      have hmem : p ∈ exportedFields secrets := List.mem_flatMap.mpr ⟨s, hs, hp⟩
      exact hperm.mem_iff.mpr (List.mem_map_of_mem hmem)
    · rw [envEntries_length]
      simpa using hperm.length_eq
    · rwa [envEntries_values]

theorem readEnvLine_envEntries (fields : List (String × String)) (seen : FieldBag) :
    ((envEntries seen fields).map envLine).map readEnvLine = (envEntries seen fields).map some := by
  rw [List.map_map]
  exact List.map_congr_left (fun p hp => readEnvLine_envLine (envEntries_no_eq p hp))

/-- Without a NUL all entries are printed. -/
theorem takeWhile_envEntries {fields : List (String × String)} {seen : FieldBag}
    (h : ∀ p ∈ fields, hasNul p.2 = false) :
    (envEntries seen fields).takeWhile (fun p => !hasNul p.2) = envEntries seen fields := by
  refine List.takeWhile_eq_self_iff.mpr (fun p hp => ?_)
  have hv : p.2 ∈ (envEntries seen fields).map Prod.snd := List.mem_map_of_mem hp
  rw [envEntries_values] at hv
  obtain ⟨q, hq, he⟩ := List.mem_map.mp hv
  simp [← he, h q hq]

/-- With a NUL no entry is printed exactly if the first value has one. -/
theorem takeWhile_envEntries_nil {fields : List (String × String)} {seen : FieldBag} :
    (envEntries seen fields).takeWhile (fun p => !hasNul p.2) = [] ↔
      fields = [] ∨ ∃ p ∈ fields.head?, hasNul p.2 = true := by
  cases fields with
  | nil => simp [envEntries]
  | cons p fields => cases hp : hasNul p.2 <;> simp [envEntries, hp]

/-- Without a NUL the env format prints every entry, and the JSON object agrees
with what is read back from the lines exactly when no field name repeats. -/
theorem export_formats_agree_iff {renderJson : FieldBag → String} {secrets : List Secret}
    {trEnv trJson : CliTrace} {codeEnv codeJson : ExitCode}
    (hnul : ∀ p ∈ exportedFields secrets, hasNul p.2 = false)
    (henv : Runs (emitExport renderJson "env" secrets) trEnv codeEnv)
    (hjson : Runs (emitExport renderJson "json" secrets) trJson codeJson) :
    stdoutOf trJson = [renderJson (jsonObject secrets)] ∧
    ∃ env : List (String × String), (stdoutOf trEnv).map readEnvLine = env.map some ∧
      (FormatsAgree secrets env (jsonObject secrets).toList ↔
        ((exportedFields secrets).map Prod.fst).Nodup) := by
  obtain ⟨hlines, -⟩ := emitExport_env henv
  refine ⟨(emitExport_json hjson).1, envEntries ∅ (exportedFields secrets), ?_, formatsAgree_iff secrets⟩
  rw [hlines, takeWhile_envEntries hnul, readEnvLine_envEntries]

def bagOf (fields : List (String × String)) : FieldBag := collect fields

/-- Two logins of one collection: both have a `password`. -/
def twoLogins : List Secret :=
  [⟨⟨"i1", "db", "c1", ["password"]⟩, bagOf [("password", "hunter2")]⟩,
    ⟨⟨"i2", "web", "c1", ["password"]⟩, bagOf [("password", "swordfish")]⟩]

def twoLoginsEnv : CliTrace :=
  [⟨.println "PASSWORD=hunter2", ()⟩, ⟨.println "PASSWORD__1=swordfish", ()⟩,
    ⟨.eprintln (.text "note: key mangled: PASSWORD <- password"), ()⟩,
    ⟨.eprintln (.text "note: key mangled: PASSWORD__1 <- password"), ()⟩]

theorem export_formats_agree_iff_twoLogins :
    ∃ env : List (String × String), (stdoutOf twoLoginsEnv).map readEnvLine = env.map some ∧
      (FormatsAgree twoLogins env (jsonObject twoLogins).toList ↔
        ((exportedFields twoLogins).map Prod.fst).Nodup) := by
  have henv : Runs (emitExport (fun _ => "json") "env" twoLogins) twoLoginsEnv .success :=
    runs_of_replay (by decide)
  have hjson : Runs (emitExport (fun _ => "json") "json" twoLogins) [⟨.println "json", ()⟩] .success :=
    runs_of_replay (by decide)
  exact (export_formats_agree_iff (by decide) henv hjson).2

theorem export_json_loses_a_value :
    (∀ p ∈ exportedFields twoLogins, hasNul p.2 = false) ∧
    Runs (emitExport (fun _ => "json") "env" twoLogins) twoLoginsEnv .success ∧
    (stdoutOf twoLoginsEnv).map readEnvLine =
      [("PASSWORD", "hunter2"), ("PASSWORD__1", "swordfish")].map some ∧
    (jsonObject twoLogins).toList = [("password", "swordfish")] ∧
    ¬ FormatsAgree twoLogins [("PASSWORD", "hunter2"), ("PASSWORD__1", "swordfish")]
      (jsonObject twoLogins).toList := by
  refine ⟨by decide, runs_of_replay (by decide), by decide, by decide, ?_⟩
  intro h
  have hcount := h.sameCount
  exact absurd hcount (by decide)

end Cryptile
