import Cryptile.Codec
import Cryptile.Commands

/-
  JsonFormat — what a consumer reads from the JSON of an export

  The command prints one line. Read as JSON, it is an object with every name that a
  field of the namespace has, once and in order, and with the value that the last of
  the fields of this name has, character by character.

  Correspondence (Rust ↔ Lean):
    `serde_json::Map`, `insert`                ↔ `jsonObject`
    `println!("{}", serde_json::Value::Object)` ↔ `renderObject`
-/

namespace Cryptile
open Text Interaction Serde JsonText

/-- The last field of this name has this value. -/
def LastField (secrets : List Secret) (name value : String) : Prop :=
  ∃ before after, exportedFields secrets = before ++ (name, value) :: after ∧ ∀ p ∈ after, p.1 ≠ name

/-- The object that is printed: its names in order, its values those of the last fields. -/
structure ObjectOf (secrets : List Secret) (members : List (String × Value)) : Prop where
  ordered : members.Pairwise (fun m n => compare m.1 n.1 = .lt)
  named : ∀ name v, (name, v) ∈ members ↔ ∃ value, v = .string value ∧ LastField secrets name value

/-- The members of the object of an export. -/
def exportMembers (secrets : List Secret) : List (String × Value) :=
  (jsonObject secrets).toList.map (fun p => (p.1, Value.string p.2))

theorem renderObject_jsonObject (secrets : List Secret) :
    renderObject (jsonObject secrets) = toJsonString (.object (exportMembers secrets)) := rfl

theorem exportMembers_printable (secrets : List Secret) : Printable (.object (exportMembers secrets)) := by
  rw [printable_object]
  intro m hm
  obtain ⟨p, -, rfl⟩ := List.mem_map.mp hm
  exact printable_string p.2

theorem jsonObject_get (secrets : List Secret) (name value : String) :
    (jsonObject secrets)[name]? = some value ↔ LastField secrets name value := by
  rw [jsonObject_eq, Collect.collect, Collect.getElem?_collectInto, LastField, ← Collect.lookup_reverse_eq_some]
  simp

theorem exportMembers_objectOf (secrets : List Secret) : ObjectOf secrets (exportMembers secrets) where
  ordered := by
    have hkeys : (jsonObject secrets).toList.Pairwise (fun p q => compare p.1 q.1 = .lt) :=
      Std.ExtTreeMap.ordered_keys_toList
    exact List.pairwise_map.mpr hkeys
  named name v := by
    rw [exportMembers, List.mem_map]
    refine ⟨?_, ?_⟩
    · rintro ⟨⟨k, value⟩, hmem, hp⟩
      obtain ⟨rfl, rfl⟩ := Prod.mk.inj hp
      exact ⟨value, rfl, (jsonObject_get secrets k value).mp
        (Std.ExtTreeMap.mem_toList_iff_getElem?_eq_some.mp hmem)⟩
    · rintro ⟨value, rfl, hlast⟩
      exact ⟨(name, value), Std.ExtTreeMap.mem_toList_iff_getElem?_eq_some.mpr
        ((jsonObject_get secrets name value).mpr hlast), rfl⟩

/-- Every run of an export prints one line, and that is read back as the object of the
fields, the last of each name. -/
theorem json_export_reads_back {ns : String} {passphraseEnv : Option String} {tr : CliTrace}
    {code : ExitCode} {secrets : List Secret}
    (h : Runs (exportCommand renderObject ns "json" passphraseEnv) tr code)
    (hs : exportedBy tr = some secrets) :
    code = .success ∧ ∃ line members, stdoutOf tr = [line] ∧ '\n' ∉ line.toList ∧
      parse line = some (.object members) ∧ ObjectOf secrets members := by
  obtain ⟨-, t, hemit, hout⟩ := exportCommand_runs h hs
  obtain ⟨hline, rfl⟩ := emitExport_json hemit
  refine ⟨rfl, _, exportMembers secrets, hout.trans hline, ?_, ?_, exportMembers_objectOf secrets⟩
  · rw [renderObject_jsonObject]
    exact print_compact_one_line (exportMembers_printable secrets)
  · rw [renderObject_jsonObject]
    exact parse_print .compact (exportMembers_printable secrets)

/-- An export of two logins, whose passwords have one name. -/
def twoLoginsRun : CliTrace :=
  [⟨.loggedIn, true⟩, ⟨.loadConfig, .ok ⟨"https://vault", "a@b"⟩⟩, ⟨.envVar "PASS", some "pw"⟩,
    ⟨.loadSession "pw", .ok ⟨"vw", "h"⟩⟩, ⟨.newProvider "https://vault" true, .ok ()⟩,
    ⟨.provider (.sessionExpiry ⟨"vw", "h"⟩), none⟩,
    ⟨.provider (.listNamespaces ⟨"vw", "h"⟩), .ok [⟨"c1", "infra"⟩]⟩,
    ⟨.provider (.getNamespaceSecrets ⟨"vw", "h"⟩ ⟨"c1", "infra"⟩), .ok twoLogins⟩,
    ⟨.println "\x7b\"password\":\"swordfish\"\x7d", ()⟩]

theorem json_export_reads_back_twoLogins :
    Runs (exportCommand renderObject "infra" "json" (some "PASS")) twoLoginsRun 0 ∧
    exportedBy twoLoginsRun = some twoLogins ∧
    ∃ line members, stdoutOf twoLoginsRun = [line] ∧ '\n' ∉ line.toList ∧
      parse line = some (.object members) ∧ ObjectOf twoLogins members := by
  have hrun : Runs (exportCommand renderObject "infra" "json" (some "PASS")) twoLoginsRun 0 :=
    runs_of_replay (by decide)
  exact ⟨hrun, rfl, (json_export_reads_back hrun rfl).2⟩

end Cryptile
