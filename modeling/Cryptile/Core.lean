import Cryptile.Lib.Text
import Cryptile.Lib.Interaction

/-
  Core — the resource model, the reference grammar and the provider facade

  Every backend maps into a field bag with metadata; a reference selects one
  field of one item. A session is opaque: the backend's own state is the string
  in its handle. `ProviderReq` is the facade as requests, one per method, so that
  a program over it runs against every backend there can be.

  Correspondence (Rust ↔ Lean):
    `core::model`                    ↔ `Namespace`, `SecretMeta`, `Secret`, `Session`
    `PRIMARY_FIELD_CHAIN`            ↔ `primaryFieldChain`
    `Secret::field`, `primary_value` ↔ `Secret.field`, `Secret.primaryValue`
    `core::reference::Ref::parse`    ↔ `Ref.parse`
    `core::provider::ProviderError`  ↔ `ProviderError`
    `core::provider::Provider`       ↔ `ProviderReq`, `ProviderAns`
  A `BTreeMap` is an extensional tree map: equal maps hold the same entries, and
  `toList` lists them in key order. `SecretString` is a plain string; redaction is
  about what is printed.
-/

namespace Cryptile
open Text Interaction

/-! ## Resources -/

structure Namespace where
  id : String
  name : String
  deriving DecidableEq, Repr

structure SecretMeta where
  id : String
  name : String
  namespaceId : String
  fields : List String
  deriving DecidableEq, Repr

abbrev FieldBag := Std.ExtTreeMap String String

structure Secret where
  info : SecretMeta
  fields : FieldBag

/-- Fallback order for references without a fragment. -/
def primaryFieldChain : List String := ["password", "notes", "private_key", "number"]

def Secret.field (s : Secret) (name : String) : Option String := s.fields[name]?

/-- The first present non-empty field along the chain. -/
def Secret.primaryValue (s : Secret) : Option String :=
  (primaryFieldChain.filterMap (fun f => s.fields[f]?)).find? (fun v => !v.isEmpty)

structure Session where
  provider : String
  handle : String
  deriving DecidableEq, Repr

/-! ## References -/

inductive ParseRefError where
  | missingScheme
  | unsupportedScheme (scheme : String)
  | emptyLocus
  | emptyField
  deriving DecidableEq, Repr

def knownSchemes : List String := ["vw", "op", "vault"]

structure Ref where
  scheme : String
  locus : String
  field : String
  fieldExplicit : Bool
  deriving DecidableEq, Repr

def Ref.defaultField : String := "password"

/-- `scheme://locus[#field]` against the known schemes. -/
def Ref.parse (s : String) : Except ParseRefError Ref := do
  let some (schemePart, rest) := splitOnce s "://" | throw .missingScheme
  let scheme := toAsciiLowercase schemePart
  if !knownSchemes.contains scheme then throw (.unsupportedScheme schemePart)
  let (locus, field, explicit) := match splitOnce rest "#" with
    | some (l, f) => (l, f, true)
    | none => (rest, Ref.defaultField, false)
  if locus.isEmpty then throw .emptyLocus
  if field.isEmpty then throw .emptyField
  return { scheme := scheme, locus := locus, field := field, fieldExplicit := explicit }

def Ref.display (r : Ref) : String := r.scheme ++ "://" ++ r.locus ++ "#" ++ r.field

/-! ## The provider facade -/

inductive ProviderError where
  | auth (detail : String)
  | forbidden (detail : String)
  | notFound (detail : String)
  | transport (detail : String)
  | server (detail : String)
  | badRef (detail : String)
  | crypto (detail : String)
  | noSession
  | authExpired
  | twoFactorRequired (providers : List String)
  deriving DecidableEq, Repr

structure SecondFactor where
  providerTag : String
  code : String
  deriving DecidableEq, Repr

/-- Where a hardware-key PIN comes from, if the ceremony asks for one: the one
source there is prompts on the terminal. -/
inductive PinSource where
  | tty
  deriving DecidableEq, Repr

structure LoginParams where
  account : String
  secret : String
  secondFactor : Option SecondFactor
  pinSource : Option PinSource
  deriving DecidableEq, Repr

inductive ProviderReq where
  | login (params : LoginParams)
  | answersTwoFactor (tag : String)
  | refreshSession (s : Session)
  | sessionExpiry (s : Session)
  | listNamespaces (s : Session)
  | listSecrets (s : Session) (ns : Namespace)
  | getNamespaceSecrets (s : Session) (ns : Namespace)
  | getSecret (s : Session) (r : Ref)
  deriving DecidableEq, Repr

abbrev ProviderAns : ProviderReq → Type
  | .login _ => Except ProviderError Session
  | .answersTwoFactor _ => Bool
  | .refreshSession _ => Except ProviderError Session
  | .sessionExpiry _ => Option UInt64
  | .listNamespaces _ => Except ProviderError (List Namespace)
  | .listSecrets _ _ => Except ProviderError (List SecretMeta)
  | .getNamespaceSecrets _ _ => Except ProviderError (List Secret)
  | .getSecret _ _ => Except ProviderError Secret

-- The fragment is what follows the first `#` after the first `://`.
example : Ref.parse "VW://a://b#c#d" = .ok ⟨"vw", "a://b", "c#d", true⟩ := by decide

end Cryptile
