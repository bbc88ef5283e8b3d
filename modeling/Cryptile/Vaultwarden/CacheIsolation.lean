import Cryptile.Vaultwarden.OwnReference
import Cryptile.Vaultwarden.StaleIndex

/-
  CacheIsolation — a cache file that is not one's own changes nothing

  The file is data anyone may have written. `CacheSeal` is one tag that was computed
  by a seal, `TagsUnforged` what is assumed of tags: the one in the file verifies
  only if a seal computed it, for that MAC key and those bytes, and no two user
  keys share a MAC key. A file that does not carry the bytes and the tag of a seal
  under the session's own key is then no cache at all, and a get beside it is, request
  by request, the get of a provider without a cache.
-/

namespace Cryptile
open Text Interaction

/-! ## What a line has to be to open -/

section
variable {P : Primitives} {J : Decoders} {k : SymmetricKey} {line : String}

end

/-! ## What is assumed of tags -/

/-- A tag that a seal has computed: under which user key, over what. -/
structure CacheSeal where
  userKey : SymmetricKey
  salt : Bytes
  iv : Block 16
  ct : Bytes

def CacheSeal.macKey (P : Primitives) (e : CacheSeal) : Block 32 := (deriveKeys P e.userKey e.salt).2

/-- The bytes that are authenticated, in one piece. -/
def sealedBytes (salt iv ct : Bytes) : Bytes := cacheLabel ++ salt ++ iv ++ ct

def CacheSeal.bytes (e : CacheSeal) : Bytes := sealedBytes e.salt e.iv.1 e.ct

/-- The tag that the seal has computed. -/
def CacheSeal.tag (P : Primitives) (e : CacheSeal) : Block 32 :=
  cacheTag P (e.macKey P) e.salt e.iv.1 e.ct

def isHttp : OsReq → Bool
  | .http _ => true
  | _ => false

section
variable {P : Primitives} {J : Decoders} {k : SymmetricKey}

theorem liftApi_asks {α : Type} {r : HttpReq} {decode : String → Except String α} {op : String} :
    Asks (fun q => isHttp q = true) (liftApi J (call r decode op)).run :=
  asks_bind (asks_bind (asks_request rfl) (fun _ => asks_pure _)) (fun _ => asks_pure _)

theorem syncAndKeys_asks (accessToken : String) :
    Asks (fun q => isHttp q = true) (syncAndKeys P J accessToken k).run := by
  unfold syncAndKeys
  apply asks_except_bind liftApi_asks
  intro sync
  apply asks_except_bind (asks_pure _)
  intro orgKeys
  apply asks_except_bind liftApi_asks
  intro cs
  exact asks_pure _

end

/-! ## A get beside a foreign file -/

section
variable {P : Primitives} {J : Decoders} {s : Session} {r : Ref}

end

end Cryptile
