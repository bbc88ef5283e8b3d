import Cryptile.Core

/-
  Cli — what the command line asks of its surroundings

  The provider, the clock, the state directory, the environment and the terminal
  are requests; a command is a program over them that ends in an exit code. An
  error ends a command through `die`: one line on stderr, and its code.

  Correspondence (Rust ↔ Lean):
    `Provider` methods             ↔ `CliReq.provider`
    `SystemTime::now`              ↔ `CliReq.systemTime`
    `State`, `Keyring`             ↔ `loggedIn`, `loadConfig`, `loadSession`, ...
    `registry::open`               ↔ `openBackend`, with `newProvider` for the backend's own
    `println!`, `eprintln!`        ↔ `println`, `eprintln`
    `die`, `die_provider`          ↔ `die`, `dieProvider`
-/

namespace Cryptile
open Text Interaction

structure StateConfig where
  server : String
  account : String
  deriving DecidableEq, Repr

/-- What a diagnostic line shows. -/
inductive Diag where
  | text (s : String)
  | badRef (e : ParseRefError)
  | provider (e : ProviderError)
  deriving DecidableEq, Repr

inductive CliReq where
  | provider (q : ProviderReq)
  | systemTime
  | loggedIn
  | loadConfig
  | loadSession (passphrase : String)
  | saveLogin (cfg : StateConfig) (sessionJson passphrase : String)
  | saveKeyring (sessionJson passphrase : String)
  | removeCache
  | envVar (name : String)
  | stdinIsTerminal
  | promptPassword (prompt : String)
  | newProvider (server : String) (cached : Bool)
  | addToAgent (value label : String)
  | println (line : String)
  | eprintln (line : Diag)
  deriving DecidableEq, Repr

/-- Seconds since the epoch, unless the clock is before it; errors as their texts. -/
abbrev CliAns : CliReq → Type
  | .provider q => ProviderAns q
  | .systemTime => Option UInt64
  | .loggedIn => Bool
  | .loadConfig => Except String StateConfig
  | .loadSession _ => Except String Session
  | .saveLogin _ _ _ => Except String Unit
  | .saveKeyring _ _ => Except String Unit
  | .removeCache => Unit
  | .envVar _ => Option String
  | .stdinIsTerminal => Bool
  | .promptPassword _ => Except String String
  | .newProvider _ _ => Except String Unit
  | .addToAgent _ _ => Unit
  | .println _ => Unit
  | .eprintln _ => Unit

abbrev Cli := Prog CliAns
abbrev CliTrace := Trace CliAns

def provider (q : ProviderReq) : Cli (ProviderAns q) := request (A := CliAns) (.provider q)

def println (line : String) : Cli Unit := request (A := CliAns) (.println line)

def eprintln (line : Diag) : Cli Unit := request (A := CliAns) (.eprintln line)

abbrev ExitCode := UInt8

def ExitCode.success : ExitCode := 0

def die (msg : Diag) (code : ExitCode) : Cli ExitCode := do
  eprintln msg
  return code

/-- 2 usage or bad ref, 3 auth or state, 4 transport, server or crypto, 5 not found. -/
def exitCode : ProviderError → ExitCode
  | .badRef _ => 2
  | .auth _ | .authExpired | .noSession | .forbidden _ | .twoFactorRequired _ => 3
  | .transport _ | .server _ | .crypto _ => 4
  | .notFound _ => 5

def dieProvider (e : ProviderError) : Cli ExitCode := die (.provider e) (exitCode e)

def backends : List String := ["vw"]

/-- The provider for a scheme: one backend is linked. -/
def openBackend (scheme server : String) (cached : Bool) : Cli (Except String Unit) :=
  if scheme = "vw" then request (A := CliAns) (.newProvider server cached)
  else return .error ("no backend linked for '" ++ scheme ++ "'; registered: " ++
    ", ".intercalate backends)

end Cryptile
