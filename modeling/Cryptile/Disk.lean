import Cryptile.Os
import Cryptile.Lib.Files
import Cryptile.Lib.CrashLogic

/-
  Disk — what the file operations do to the files

  `fileStep` is a disk with the guarantees the code relies on, and no more: an
  operation that succeeds does what it says, a rename is atomic, and one that
  fails leaves every other name alone. Directories and modes are not files.
  `diskStep` also counts the names that were replaced by a rename so far.

  Correspondence (Rust ↔ Lean):
    `OpenOptions::open`, `File::create` ↔ `OsReq.openTruncate`
    `write_all`, `sync_all`             ↔ `OsReq.writeAll`, `OsReq.syncAll`
    `fs::rename`                        ↔ `OsReq.rename`
-/

namespace Cryptile
open Interaction Files

variable {τ : Type}

/-- The program with its errors put into another type. -/
def mapErr {ε α : Type} (wrap : String → ε) (x : Os (Except String α)) : ExceptT ε Os α :=
  ExceptT.mk ((fun r : Except String α => r.mapError wrap) <$> x)

/-- The event can take the disk from the one state to the other; what is written
belongs to `who`. -/
def fileStep (who : τ) (d : Disk Path τ) : Sigma OsAns → Disk Path τ → Prop
  | ⟨.openTruncate path _, .ok _⟩, d' => d' = put d path ⟨"", who⟩
  | ⟨.writeAll path content, .ok _⟩, d' => d' = put d path ⟨content, who⟩
  -- a write that fails can have written anything, to its own file
  | ⟨.openTruncate path _, .error _⟩, d' => OnlyAt path d d'
  | ⟨.writeAll path _, .error _⟩, d' => OnlyAt path d d'
  | ⟨.rename source target, .ok _⟩, d' => (d source).isSome = true ∧ d' = move d source target
  -- a file that is there may still not be seen
  | ⟨.isFile path, b⟩, d' => (b = true → (d path).isSome = true) ∧ d' = d
  | ⟨.readToString path, .ok raw⟩, d' => (d path).map File.content = some raw ∧ d' = d
  | _, d' => d' = d

/-- The name that a rename has replaced. -/
def renamed : Sigma OsAns → Option Path
  | ⟨.rename _ target, .ok _⟩ => some target
  | _ => none

def renames (tr : OsTrace) : List Path := tr.filterMap renamed

/-- The files, and the names replaced so far. -/
@[ext] structure Machine (τ : Type) where
  files : Disk Path τ
  replaced : List Path

def diskStep (who : τ) (m : Machine τ) (e : Sigma OsAns) (m' : Machine τ) : Prop :=
  fileStep who m.files e m'.files ∧ m'.replaced = m.replaced ++ (renamed e).toList

/-- A run of the disk is one of the machine that counts its renames. -/
theorem steps_machine {who : τ} : ∀ {tr : OsTrace} {d d' : Disk Path τ} {r : List Path},
    Steps (fileStep who) d tr d' → Steps (diskStep who) ⟨d, r⟩ tr ⟨d', r ++ renames tr⟩
  | [], _, _, _, h => by
    cases h
    simp [Steps, renames]
  | e :: tr, _, _, r, ⟨mid, hstep, hrest⟩ => by
    have hcons : renames (e :: tr) = (renamed e).toList ++ renames tr := by
      cases h : renamed e <;> simp [renames, h]
    refine ⟨⟨mid, r ++ (renamed e).toList⟩, ⟨hstep, rfl⟩, ?_⟩
    rw [hcons, ← List.append_assoc]
    exact steps_machine hrest

/-! ## The operations -/

/-- Nothing has changed but perhaps one file, and nothing was replaced. -/
structure Touched (path : Path) (m m' : Machine τ) : Prop where
  only : OnlyAt path m.files m'.files
  replaced : m'.replaced = m.replaced

theorem Touched.refl (path : Path) (m : Machine τ) : Touched path m m := ⟨.refl _ _, rfl⟩

theorem Touched.trans {path : Path} {m m' m'' : Machine τ} (h₁ : Touched path m m')
    (h₂ : Touched path m' m'') : Touched path m m'' :=
  ⟨h₁.only.trans h₂.only, h₂.replaced.trans h₁.replaced⟩

/-- The file has its name, and the temporary one it was written under is gone. -/
structure Published (tmp path : Path) (f : File τ) (m m' : Machine τ) : Prop where
  file : m'.files path = some f
  others : ∀ name, name ≠ tmp → name ≠ path → m'.files name = m.files name
  replaced : m'.replaced = m.replaced ++ [path]

theorem Touched.publish {tmp : Path} {f : File τ} {m m' : Machine τ} (h : Touched tmp m m')
    (hfile : m'.files tmp = some f) (path : Path) :
    Published tmp path f m ⟨move m'.files tmp path, m'.replaced ++ [path]⟩ where
  file := move_target.trans hfile
  others name htmp hpath := (move_other htmp hpath).trans (h.only name htmp)
  replaced := congrArg (· ++ [path]) h.replaced

/-- An operation that is not on a file. -/
def keepsFiles : OsReq → Bool
  | .openTruncate _ _ | .writeAll _ _ | .rename _ _ => false
  | _ => true

section
variable {who : τ} {m : Machine τ} {crash : Machine τ → Prop} {path : Path}

theorem mapErr_safe {ε α β : Type} {wrap : String → ε} {x : Os (Except String α)}
    {k : α → ExceptT ε Os β} {post : Except String α → Machine τ → Prop}
    {post' : Except ε β → Machine τ → Prop} (h : Safe (diskStep who) post crash x m)
    (herror : ∀ e s, post (.error e) s → post' (.error (wrap e)) s)
    (hok : ∀ a s, post (.ok a) s → Safe (diskStep who) post' crash (k a).run s) :
    Safe (diskStep who) post' crash (mapErr wrap x >>= k).run m := by
  have hwrapped : Safe (diskStep who) (fun r s => ∃ y, r = y.mapError wrap ∧ post y s) crash
      (mapErr wrap x).run m := safe_map (h.mono (fun y _ hy => ⟨y, rfl, hy⟩) (fun _ hs => hs))
  refine safe_except_bind hwrapped ?_ ?_
  · rintro e s ⟨y, he, hpost⟩
    cases y with
    | error e' => cases he; exact herror e' s hpost
    | ok a => cases he
  · rintro a s ⟨y, ha, hpost⟩
    cases y with
    | error e' => cases ha
    | ok a' => cases ha; exact hok a s hpost

theorem quiet_safe {q : OsReq} (hq : keepsFiles q = true) (hcrash : crash m) :
    Safe (diskStep who) (fun _ m' => m' = m) crash (os q) m := by
  refine safe_ask hcrash (fun x m' hstep => ?_)
  have hsame : m' = m := by
    obtain ⟨hfiles, hreplaced⟩ := hstep
    have hnone : renamed ⟨q, x⟩ = none := by
      cases q <;> first | rfl | cases hq
    rw [hnone, Option.toList_none, List.append_nil] at hreplaced
    refine Machine.ext ?_ hreplaced
    cases q with
    | openTruncate _ _ => cases hq
    | writeAll _ _ => cases hq
    | rename _ _ => cases hq
    | isFile _ => exact hfiles.2
    | readToString _ =>
      cases x with
      | ok _ => exact hfiles.2
      | error _ => exact hfiles
    | _ => exact hfiles
  subst hsame
  exact ⟨rfl, hcrash⟩

theorem openTruncate_safe {mode : Option UInt32} (hcrash : ∀ m', Touched path m m' → crash m') :
    Safe (diskStep who) (fun _ m' => Touched path m m') crash (os (.openTruncate path mode)) m := by
  refine safe_ask (hcrash m (.refl _ _)) (fun x m' hstep => ?_)
  have htouched : Touched path m m' := by
    refine ⟨?_, by simpa [renamed] using hstep.2⟩
    cases x with
    | ok _ => rw [show m'.files = _ from hstep.1]; exact put_onlyAt
    | error _ => exact hstep.1
  exact ⟨htouched, hcrash m' htouched⟩

theorem writeAll_safe {content : String} (hcrash : ∀ m', Touched path m m' → crash m') :
    Safe (diskStep who)
      (fun x m' => Touched path m m' ∧ (x = .ok () → m'.files path = some ⟨content, who⟩)) crash
      (os (.writeAll path content)) m := by
  refine safe_ask (hcrash m (.refl _ _)) (fun x m' hstep => ?_)
  cases x with
  | ok _ =>
    have hfiles : m'.files = put m.files path ⟨content, who⟩ := hstep.1
    have htouched : Touched path m m' :=
      ⟨by rw [hfiles]; exact put_onlyAt, by simpa [renamed] using hstep.2⟩
    exact ⟨⟨htouched, fun _ => by rw [hfiles, put_same]⟩, hcrash m' htouched⟩
  | error _ =>
    have htouched : Touched path m m' := ⟨hstep.1, by simpa [renamed] using hstep.2⟩
    exact ⟨⟨htouched, by simp⟩, hcrash m' htouched⟩

theorem rename_safe {source target : Path} (hcrash : crash m)
    (hmoved : crash ⟨move m.files source target, m.replaced ++ [target]⟩) :
    Safe (diskStep who)
      (fun x m' => (∃ e, x = .error e ∧ m' = m) ∨
        x = .ok () ∧ m' = ⟨move m.files source target, m.replaced ++ [target]⟩) crash
      (os (.rename source target)) m := by
  refine safe_ask hcrash (fun x m' hstep => ?_)
  cases x with
  | ok _ =>
    have hm' : m' = ⟨move m.files source target, m.replaced ++ [target]⟩ :=
      Machine.ext hstep.1.2 (by simpa [renamed] using hstep.2)
    subst hm'
    exact ⟨.inr ⟨rfl, rfl⟩, hmoved⟩
  | error e =>
    have hm' : m' = m := Machine.ext hstep.1 (by simpa [renamed] using hstep.2)
    subst hm'
    exact ⟨.inl ⟨e, rfl, rfl⟩, hcrash⟩

end

end Cryptile
