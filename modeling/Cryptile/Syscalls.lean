import Cryptile.Cli
import Cryptile.Disk
import Cryptile.Lib.Inodes
import Cryptile.Lib.Interleaving

/-
  Syscalls — the file operations of processes that share a disk

  What the state directory does in one operation the kernel may take in several:
  `write_all` writes on until nothing is left, and another process can run between
  two of its writes. `sysStep` is what each call does to names and inodes, with the
  guarantees of `fileStep` and no more. The world keeps a log of all calls.

  Correspondence (Rust ↔ Lean):
    `Write::write_all` over `write` ↔ `writeAll` over `SysReq.write`
    every other operation of `Os`   ↔ `SysReq.file`
    what a command asks besides     ↔ `SysReq.cli`
-/

namespace Cryptile
open Text Interaction Inodes

inductive SysReq where
  | file (q : OsReq)
  | write (path : Path) (buf : Bytes)
  | cli (q : CliReq)
  deriving DecidableEq

/-- A write answers how many of the bytes it has taken. -/
abbrev SysAns : SysReq → Type
  | .file q => OsAns q
  | .write _ _ => Except String Nat
  | .cli q => CliAns q

abbrev Sys := Prog SysAns
abbrev SysEvent := Sigma SysAns

/-- Write what is left until nothing is. A write that is interrupted has taken
nothing and is made again, so it is not seen here. -/
def writeAll (path : Path) (buf : Bytes) : Sys (Except String Unit) :=
  if buf = [] then pure (.ok ())
  else request (A := SysAns) (.write path buf) >>= fun
    | .ok 0 => pure (.error "failed to write whole buffer")
    | .ok (n + 1) => writeAll path (buf.drop (n + 1))
    | .error e => pure (.error e)
termination_by buf.length
decreasing_by
  have hpos : 0 < buf.length := List.length_pos_iff.mpr (by assumption)
  rw [List.length_drop]
  omega

/-- The operations as the kernel takes them. -/
def syscalls : ∀ q : OsReq, Sys (OsAns q)
  | .writeAll path content => writeAll path (utf8 content)
  | .http r => request (A := SysAns) (.file (.http r))
  | .systemTime => request (A := SysAns) (.file .systemTime)
  | .random n => request (A := SysAns) (.file (.random n))
  | .createDirAll path => request (A := SysAns) (.file (.createDirAll path))
  | .modeOf path => request (A := SysAns) (.file (.modeOf path))
  | .setMode path mode => request (A := SysAns) (.file (.setMode path mode))
  | .isFile path => request (A := SysAns) (.file (.isFile path))
  | .readToString path => request (A := SysAns) (.file (.readToString path))
  | .openTruncate path mode => request (A := SysAns) (.file (.openTruncate path mode))
  | .syncAll path => request (A := SysAns) (.file (.syncAll path))
  | .rename source target => request (A := SysAns) (.file (.rename source target))
  | .fidohCeremony ch pin => request (A := SysAns) (.file (.fidohCeremony ch pin))
  | .legacyCeremony ch => request (A := SysAns) (.file (.legacyCeremony ch))

/-- The operation as a call, where a write takes all that it is given. -/
def asSyscall : Sigma OsAns → SysEvent
  | ⟨.writeAll path content, x⟩ => ⟨.write path (utf8 content), x.map (fun _ => (utf8 content).length)⟩
  | ⟨q, x⟩ => ⟨.file q, x⟩

theorem writeAll_runs {path : Path} {bytes : Bytes} (hne : bytes ≠ []) :
    Runs (writeAll path bytes) [⟨.write path bytes, .ok bytes.length⟩] (.ok ()) := by
  rw [writeAll, if_neg hne]
  obtain ⟨n, hn⟩ : ∃ n, bytes.length = n + 1 := Nat.exists_eq_add_one.mpr (List.length_pos_iff.mpr hne)
  refine runs_request_bind.mpr ⟨.ok bytes.length, [], rfl, ?_⟩
  rw [hn]
  change Runs (writeAll path (bytes.drop (n + 1))) [] (.ok ())
  rw [← hn, List.drop_length, writeAll, if_pos rfl]
  exact ⟨rfl, rfl⟩

/-- An operation that writes nothing makes no call. -/
def WritesSome : OsReq → Prop
  | .writeAll _ content => utf8 content ≠ []
  | _ => True

theorem asSyscall_runs {e : Sigma OsAns} (h : WritesSome e.1) : Runs (syscalls e.1) [asSyscall e] e.2 := by
  obtain ⟨q, x⟩ := e
  cases q with
  | writeAll path content =>
    cases x with
    | ok u => exact writeAll_runs h
    | error e =>
      change Runs (writeAll path (utf8 content)) _ _
      rw [writeAll, if_neg h]
      exact runs_request_bind.mpr ⟨.error e, [], rfl, rfl, rfl⟩
  | _ => exact runs_request.mpr rfl

theorem carriedOut_syscalls : ∀ {t : OsTrace}, (∀ e ∈ t, WritesSome e.1) →
    CarriedOut syscalls t (t.map asSyscall)
  | [], _ => rfl
  | e :: rest, h => ⟨[asSyscall e], rest.map asSyscall, rfl, asSyscall_runs (h e (List.mem_cons_self ..)),
      carriedOut_syscalls (fun e he => h e (List.mem_cons_of_mem _ he))⟩

/-! ## The shared disk -/

structure World (ι : Type) where
  disk : Shared ι Path
  log : List (ι × SysEvent)

def World.start {ι : Type} (t : FileTree Path) : World ι := ⟨.start t, []⟩

variable {ι : Type}

/-- A call with this answer can take the disk from the one state to the other. -/
def diskEffect [DecidableEq ι] (i : ι) (d : Shared ι Path) : SysEvent → Shared ι Path → Prop
  | ⟨.file (.openTruncate path _), .ok _⟩, d' => d' = d.openTruncate i path
  | ⟨.write path buf, .ok n⟩, d' => ∃ h, d.handle i path = some h ∧ n ≤ buf.length ∧
      d' = d.write i path h (buf.take n)
  | ⟨.file (.syncAll path), .ok _⟩, d' => ∃ h, d.handle i path = some h ∧ d' = d.sync i path h
  | ⟨.file (.rename source target), .ok _⟩, d' => (d.tree.names source).isSome = true ∧
      d' = d.rename source target
  -- a file that is there may still not be seen
  | ⟨.file (.isFile path), b⟩, d' => (b = true → (d.tree.names path).isSome = true) ∧ d' = d
  | ⟨.file (.readToString path), .ok raw⟩, d' => d.tree.read path = some (utf8 raw) ∧ d' = d
  -- a write of all there is goes by its parts
  | ⟨.file (.writeAll _ _), _⟩, _ => False
  | _, d' => d' = d

def sysStep [DecidableEq ι] (i : ι) (w : World ι) (e : SysEvent) (w' : World ι) : Prop :=
  diskEffect i w.disk e w'.disk ∧ w'.log = w.log ++ [(i, e)]

/-- A call that leaves the disk as it is, whatever it answers. -/
def isIdle : SysReq → Bool
  | .file (.openTruncate _ _) | .file (.writeAll _ _) | .file (.syncAll _) | .file (.rename _ _)
  | .write _ _ => false
  | _ => true

theorem syscalls_idle {q : OsReq} (h : isIdle (.file q) = true) :
    syscalls q = request (A := SysAns) (.file q) := by
  cases q <;> first | rfl | cases h

/-- What a call can do to the disk. -/
inductive DiskChange [DecidableEq ι] (i : ι) (d : Shared ι Path) : SysEvent → Shared ι Path → Prop
  | idle {e : SysEvent}
      (hkept : ∀ source target x, e ≠ ⟨.file (.rename source target), .ok x⟩) : DiskChange i d e d
  | opened {path : Path} {mode : Option UInt32} :
      DiskChange i d ⟨.file (.openTruncate path mode), .ok ()⟩ (d.openTruncate i path)
  | wrote {path : Path} {buf : Bytes} {n : Nat} {h : Handle} (hhandle : d.handle i path = some h)
      (hn : n ≤ buf.length) :
      DiskChange i d ⟨.write path buf, .ok n⟩ (d.write i path h (buf.take n))
  | synced {path : Path} {h : Handle} (hhandle : d.handle i path = some h) :
      DiskChange i d ⟨.file (.syncAll path), .ok ()⟩ (d.sync i path h)
  | renamed {source target : Path} (hsource : (d.tree.names source).isSome = true) :
      DiskChange i d ⟨.file (.rename source target), .ok ()⟩ (d.rename source target)

section
variable [DecidableEq ι] {i : ι} {d d' : Shared ι Path} {e : SysEvent}

theorem diskEffect_idle (hidle : isIdle e.1 = true) (h : diskEffect i d e d') : d' = d := by
  obtain ⟨q, x⟩ := e
  cases q with
  | write _ _ => cases hidle
  | cli _ => exact h
  | file q =>
    cases q with
    | openTruncate _ _ => cases hidle
    | writeAll _ _ => cases hidle
    | syncAll _ => cases hidle
    | rename _ _ => cases hidle
    | isFile _ => exact h.2
    | readToString _ =>
      cases x with
      | ok _ => exact h.2
      | error _ => exact h
    | _ => exact h

theorem diskChange (h : diskEffect i d e d') : DiskChange i d e d' := by
  by_cases hidle : isIdle e.1 = true
  · rw [diskEffect_idle hidle h]
    refine .idle (fun source target x he => ?_)
    rw [he] at hidle
    cases hidle
  obtain ⟨q, x⟩ := e
  cases q with
  | cli _ => exact absurd rfl hidle
  | write path buf =>
    cases x with
    | error _ => rw [show d' = d from h]; exact .idle (fun _ _ _ he => by cases he)
    | ok n =>
      obtain ⟨hd, hhandle, hn, rfl⟩ := h
      exact .wrote hhandle hn
  | file q =>
    cases q with
    | openTruncate path mode =>
      cases x with
      | error _ => rw [show d' = d from h]; exact .idle (fun _ _ _ he => by cases he)
      | ok _ => rw [show d' = _ from h]; exact .opened
    | writeAll _ _ => exact h.elim
    | syncAll path =>
      cases x with
      | error _ => rw [show d' = d from h]; exact .idle (fun _ _ _ he => by cases he)
      | ok _ =>
        obtain ⟨hd, hhandle, rfl⟩ := h
        exact .synced hhandle
    | rename source target =>
      cases x with
      | error _ => rw [show d' = d from h]; exact .idle (fun _ _ _ he => by cases he)
      | ok _ =>
        obtain ⟨hsource, rfl⟩ := h
        exact .renamed hsource
    | _ => exact absurd rfl hidle

end

end Cryptile
