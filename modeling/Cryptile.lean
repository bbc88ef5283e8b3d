import Cryptile.Core
import Cryptile.RefGrammar
import Cryptile.Lib.Text
import Cryptile.Lib.Base64
import Cryptile.Lib.Collect
import Cryptile.Lib.FirstSeen
import Cryptile.Lib.JsonText
import Cryptile.Lib.JsonPrint
import Cryptile.Lib.Serde
import Cryptile.Lib.Interaction
import Cryptile.Lib.Within
import Cryptile.Lib.Safety
import Cryptile.Lib.Related
import Cryptile.Lib.CrashLogic
import Cryptile.Lib.Interleaving
import Cryptile.Lib.Inodes
import Cryptile.Lib.Files
import Cryptile.Cli
import Cryptile.Ops
import Cryptile.Retry
import Cryptile.Rotation
import Cryptile.Commands
import Cryptile.Export
import Cryptile.EnvFormat
import Cryptile.Hermes
import Cryptile.Os
import Cryptile.Disk
import Cryptile.Syscalls
import Cryptile.Keyring
import Cryptile.KeyringOutcomes
import Cryptile.SavePromise
import Cryptile.SaveRace
import Cryptile.CommandPromise
import Cryptile.State
import Cryptile.Vaultwarden.Crypto
import Cryptile.Vaultwarden.Api
import Cryptile.Vaultwarden.Mapping
import Cryptile.Vaultwarden.FieldBag
import Cryptile.Vaultwarden.FieldPresence
import Cryptile.Vaultwarden.Cache
import Cryptile.Vaultwarden.Provider
import Cryptile.Vaultwarden.Payload
import Cryptile.Vaultwarden.BulkPaths
import Cryptile.Vaultwarden.WarmPath
import Cryptile.Vaultwarden.StaleIndex
import Cryptile.Vaultwarden.FailLoud
import Cryptile.Vaultwarden.KeySeparation
import Cryptile.Vaultwarden.Addressing
import Cryptile.Vaultwarden.OwnReference
import Cryptile.Vaultwarden.NamespaceIds
import Cryptile.Vaultwarden.CacheIsolation
import Cryptile.Vaultwarden.FailsClosed
import Cryptile.Vaultwarden.TwoFactor
import Cryptile.Vaultwarden.ChallengeBody
import Cryptile.Vaultwarden.WireIds
import Cryptile.Vaultwarden.Webauthn
import Cryptile.Vaultwarden.Ceremony
import Cryptile.Vaultwarden.CeremonyClasses
import Cryptile.Vaultwarden.Login
import Cryptile.Vaultwarden.AdvertisedKdf
import Cryptile.TokenLifetime
import Cryptile.LoginCommand
import Cryptile.SecondFactorChoice
import Cryptile.LoginRace
import Cryptile.Records
import Cryptile.Codec
import Cryptile.StateCell
import Cryptile.Host
import Cryptile.Vaultwarden.NullTolerance
import Cryptile.SessionUse
import Cryptile.Confinement
import Cryptile.EndToEnd
import Cryptile.Provenance
import Cryptile.HostDisk
import Cryptile.LongRun
import Cryptile.HermesRun
import Cryptile.Blindness
import Cryptile.JsonFormat
import Cryptile.HandOff
