import Cryptile.Rotation
import Cryptile.State
import Cryptile.Vaultwarden.Cache

/-
  Records — what the program needs of its serializer

  A process reads the bodies of its server, its config, its session and its cache, and
  writes the last three and the object of an export. `Codecs` is what does so, and
  `Codecs.Lawful` what the process relies on: what it has written is read back, and the
  text of a session has no blank at its ends, which the keyring would trim. That is all
  that the results on whole processes say of serde; which text it is they leave open.
-/

namespace Cryptile
open Text

structure Codecs where
  decoders : Decoders
  encodeConfig : StateConfig → String
  decodeConfig : String → Except String StateConfig
  renderObject : FieldBag → String

structure Codecs.Lawful (D : Codecs) : Prop where
  session : ∀ sess, ∃ handle, D.decoders.encodeSession sess = .ok handle ∧ Bare handle ∧
    D.decoders.session handle = .ok sess
  index : D.decoders.Lawful
  config : ∀ cfg, D.decodeConfig (D.encodeConfig cfg) = .ok cfg

/-- The handle of a session. -/
def Codecs.handleOf (D : Codecs) (sess : VwSession) : String :=
  match D.decoders.encodeSession sess with
  | .ok handle => handle
  | .error _ => ""

section
variable {D : Codecs} (hD : D.Lawful)
include hD

theorem Codecs.Lawful.keepsSessions : D.decoders.KeepsSessions := by
  intro sess
  obtain ⟨handle, hencode, -, hdecode⟩ := hD.session sess
  exact ⟨handle, hencode, hdecode⟩

theorem Codecs.Lawful.handleOf (sess : VwSession) :
    D.decoders.encodeSession sess = .ok (D.handleOf sess) ∧ Bare (D.handleOf sess) ∧
      D.decoders.session (D.handleOf sess) = .ok sess := by
  obtain ⟨handle, hencode, hbare, hdecode⟩ := hD.session sess
  have hhandle : D.handleOf sess = handle := by rw [Codecs.handleOf, hencode]
  rw [hhandle]
  exact ⟨hencode, hbare, hdecode⟩

theorem Codecs.Lawful.trim_handleOf (sess : VwSession) : trim (D.handleOf sess) = D.handleOf sess :=
  (trim_eq_self_iff _).mpr (hD.handleOf sess).2.1

theorem Codecs.Lawful.encodeVwSession_eq (sess : VwSession) :
    encodeVwSession D.decoders sess = .ok ⟨"vw", D.handleOf sess⟩ := by
  rw [encodeVwSession, (hD.handleOf sess).1]

theorem Codecs.Lawful.parseSession_handleOf (sess : VwSession) :
    parseSession D.decoders ⟨"vw", D.handleOf sess⟩ = .ok sess := by
  rw [parseSession, (hD.handleOf sess).2.2]
  rfl

end

end Cryptile
