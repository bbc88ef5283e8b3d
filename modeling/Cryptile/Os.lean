import Cryptile.Vaultwarden.Crypto

/-
  Os — what the backend and the state directory ask of the machine

  HTTP requests, the clock, randomness, file operations and the security key are
  requests, each with the answer it can get; an error is its text. A program over
  them can be run against any server, disk and key, and stopped after any of its
  operations.

  Correspondence (Rust ↔ Lean):
    `reqwest` requests                ↔ `OsReq.http`
    `SystemTime::now`                 ↔ `OsReq.systemTime`
    `OsRng::try_fill_bytes`           ↔ `OsReq.random`
    `std::fs`, one operation each     ↔ `OsReq.createDirAll`, ..., `OsReq.rename`
    the CTAP2 ceremony on its thread  ↔ `OsReq.fidohCeremony`, `OsReq.legacyCeremony`
    `Path::join`, `with_extension`    ↔ `Path.join`, `Path.withExtension`
-/

namespace Cryptile
open Text Interaction

/-! ## Paths -/

/-- The components of a path. -/
abbrev Path := List String

def Path.join (p : Path) (name : String) : Path := p ++ [name]

/-- What precedes the last dot, unless nothing does. -/
def fileStem (name : String) : String :=
  match (split name '.').reverse with
  | _ :: before => if before.isEmpty || before = [""] then name else ".".intercalate before.reverse
  | [] => name

def Path.withExtension (p : Path) (ext : String) : Path :=
  match p.getLast? with
  | some name => p.dropLast ++ [fileStem name ++ "." ++ ext]
  | none => p

def Path.parent (p : Path) : Option Path := if p.isEmpty then none else some p.dropLast

example : Path.withExtension ["state", "config.json"] "json.tmp" = ["state", "config.json.tmp"] := by
  decide

/-! ## Requests -/

inductive Endpoint where
  | prelogin
  | token
  | sync
  | collections
  | cipher (uuid : String)
  deriving DecidableEq, Repr

def Endpoint.path : Endpoint → String
  | .prelogin => "/identity/accounts/prelogin"
  | .token => "/identity/connect/token"
  | .sync => "/api/sync"
  | .collections => "/api/collections"
  | .cipher uuid => "/api/ciphers/" ++ uuid

inductive HttpReq where
  | postJson (e : Endpoint) (email : String)
  | postForm (e : Endpoint) (form : List (String × String))
  | get (e : Endpoint) (bearer : String)
  deriving DecidableEq, Repr

structure HttpResp where
  status : UInt16
  body : String
  deriving DecidableEq, Repr

/-- Whether the server wants the key to verify its user. -/
inductive UvPosture where
  | discouraged
  | preferred
  deriving DecidableEq, Repr

structure WebauthnChallenge where
  challengeB64 : String
  rpId : String
  allowCredentialIds : List String
  uv : UvPosture
  deriving DecidableEq, Repr

inductive FidohCeremonyError where
  | declined (msg : String)
  | wrongCredential
  | noDevice (msg : String)
  | transport (msg : String)
  | budgetExpired (phase : String) (budget : Nat)
  | assembly (msg : String)
  deriving DecidableEq, Repr

inductive WebauthnError where
  | noDevice
  | device (msg : String)
  | challenge (msg : String)
  deriving DecidableEq, Repr

inductive OsReq where
  | http (r : HttpReq)
  | systemTime
  | random (n : Nat)
  | createDirAll (path : Path)
  | modeOf (path : Path)
  | setMode (path : Path) (mode : UInt32)
  | isFile (path : Path)
  | readToString (path : Path)
  | openTruncate (path : Path) (mode : Option UInt32)
  | writeAll (path : Path) (content : String)
  | syncAll (path : Path)
  | rename (source target : Path)
  | fidohCeremony (ch : WebauthnChallenge) (pin : Option PinSource)
  | legacyCeremony (ch : WebauthnChallenge)
  deriving DecidableEq, Repr

/-- A ceremony that never reports back has no answer. -/
abbrev OsAns : OsReq → Type
  | .http _ => Except String HttpResp
  | .systemTime => Option UInt64
  | .random n => Except String (Block n)
  | .createDirAll _ => Except String Unit
  | .modeOf _ => Except String UInt32
  | .setMode _ _ => Except String Unit
  | .isFile _ => Bool
  | .readToString _ => Except String String
  | .openTruncate _ _ => Except String Unit
  | .writeAll _ _ => Except String Unit
  | .syncAll _ => Except String Unit
  | .rename _ _ => Except String Unit
  | .fidohCeremony _ _ => Option (Except FidohCeremonyError String)
  | .legacyCeremony _ => Option (Except WebauthnError String)

abbrev Os := Prog OsAns
abbrev OsTrace := Trace OsAns

def os (q : OsReq) : Os (OsAns q) := request q

end Cryptile
