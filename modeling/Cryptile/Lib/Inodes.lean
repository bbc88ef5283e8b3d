import Mathlib.Data.List.Basic
import Mathlib.Data.List.TakeWhile
import Mathlib.Logic.Function.Basic

/-
  Inodes — files that several processes have open

  A name leads to an inode and the inode has the bytes. Opening takes hold of the
  inode, so a write goes where the file was when it was opened, whatever its name
  has been given to since; a rename only changes what a name leads to. Nothing here
  makes a second link: a file has one name at most.

  `Shared` adds what the processes have open, and keeps of the past who opened each
  inode last and whether they have synced it since.
-/

namespace Inodes

/-! ## Names and contents -/

structure FileTree (N : Type) where
  names : N → Option Nat
  content : Nat → List UInt8
  next : Nat
  fresh : ∀ n i, names n = some i → i < next
  single : ∀ n m i, names n = some i → names m = some i → n = m

/-- The old bytes with the new ones over them from the offset on; a hole reads as zeros. -/
def splice (old : List UInt8) (offset : Nat) (new : List UInt8) : List UInt8 :=
  old.take offset ++ List.replicate (offset - old.length) 0 ++ new ++ old.drop (offset + new.length)

/-- Writing on at the end of a prefix. -/
theorem splice_take {bytes : List UInt8} {k n : Nat} (hk : k ≤ bytes.length) :
    splice (bytes.take k) k ((bytes.drop k).take n) = bytes.take (k + n) := by
  have hlen : (bytes.take k).length = k := by rw [List.length_take]; omega
  have hdrop : (bytes.take k).drop (k + ((bytes.drop k).take n).length) = [] := by
    apply List.drop_eq_nil_of_le
    omega
  rw [splice, hdrop, hlen, Nat.sub_self, List.replicate_zero, List.append_nil, List.append_nil,
    List.take_of_length_le (by omega), ← List.take_add]

namespace FileTree

variable {N : Type} (t : FileTree N)

def read (n : N) : Option (List UInt8) := (t.names n).map t.content

/-- The inode of the file, or a new one. -/
def inodeFor (n : N) : Nat := (t.names n).getD t.next

variable {t} {n m source target : N} {i : Nat}

theorem inodeFor_ne (hm : t.names m = some i) (hne : m ≠ n) : i ≠ t.inodeFor n := by
  intro h
  unfold inodeFor at h
  cases hn : t.names n with
  | none =>
    rw [hn, Option.getD_none] at h
    have := t.fresh m i hm
    omega
  | some j =>
    rw [hn, Option.getD_some] at h
    rw [h] at hm
    exact hne (t.single m n j hm hn)

variable (t)

section
variable [DecidableEq N]

/-- The file is there, and empty. -/
def truncate (n : N) : FileTree N where
  names := Function.update t.names n (some (t.inodeFor n))
  content := Function.update t.content (t.inodeFor n) []
  next := max t.next (t.inodeFor n + 1)
  fresh m i h := by
    by_cases hm : m = n
    · rw [hm, Function.update_self] at h
      cases h
      omega
    · rw [Function.update_of_ne hm] at h
      have := t.fresh m i h
      omega
  single m₁ m₂ i h₁ h₂ := by
    by_cases hm₁ : m₁ = n
    · by_cases hm₂ : m₂ = n
      · rw [hm₁, hm₂]
      · rw [hm₁, Function.update_self] at h₁
        rw [Function.update_of_ne hm₂] at h₂
        exact absurd (Option.some.inj h₁).symm (inodeFor_ne h₂ hm₂)
    · rw [Function.update_of_ne hm₁] at h₁
      by_cases hm₂ : m₂ = n
      · rw [hm₂, Function.update_self] at h₂
        exact absurd (Option.some.inj h₂).symm (inodeFor_ne h₁ hm₁)
      · rw [Function.update_of_ne hm₂] at h₂
        exact t.single m₁ m₂ i h₁ h₂

/-- The target leads to the file of the source, whatever it led to. -/
def rename (source target : N) : FileTree N where
  names n := if n = target then t.names source else if n = source then none else t.names n
  content := t.content
  next := t.next
  fresh n i h := by
    split at h
    · exact t.fresh source i h
    · split at h
      · cases h
      · exact t.fresh n i h
  single n m i hn hm := by
    by_cases hnt : n = target
    · by_cases hmt : m = target
      · rw [hnt, hmt]
      · rw [if_pos hnt] at hn
        rw [if_neg hmt] at hm
        by_cases hms : m = source
        · rw [if_pos hms] at hm; cases hm
        · rw [if_neg hms] at hm
          exact absurd (t.single m source i hm hn) hms
    · rw [if_neg hnt] at hn
      by_cases hns : n = source
      · rw [if_pos hns] at hn; cases hn
      · rw [if_neg hns] at hn
        by_cases hmt : m = target
        · rw [if_pos hmt] at hm
          exact absurd (t.single n source i hn hm) hns
        · rw [if_neg hmt] at hm
          by_cases hms : m = source
          · rw [if_pos hms] at hm; cases hm
          · rw [if_neg hms] at hm
            exact t.single n m i hn hm

end

/-- The bytes are written into the inode, from the offset on. -/
def overwrite (i offset : Nat) (bytes : List UInt8) : FileTree N :=
  { t with content := Function.update t.content i (splice (t.content i) offset bytes) }

variable {t}

@[simp] theorem overwrite_names {offset : Nat} {bytes : List UInt8} :
    (t.overwrite i offset bytes).names = t.names := rfl

theorem overwrite_self {offset : Nat} {bytes : List UInt8} :
    (t.overwrite i offset bytes).content i = splice (t.content i) offset bytes :=
  Function.update_self ..

theorem overwrite_content {offset j : Nat} {bytes : List UInt8} (hj : j ≠ i) :
    (t.overwrite i offset bytes).content j = t.content j := Function.update_of_ne hj ..

theorem overwrite_read {offset : Nat} {bytes : List UInt8} (hn : t.names n ≠ some i) :
    (t.overwrite i offset bytes).read n = t.read n := by
  unfold read
  rw [overwrite_names]
  cases hname : t.names n with
  | none => rfl
  | some j =>
    rw [hname] at hn
    exact congrArg some (overwrite_content (fun hj => hn (congrArg some hj)))

section
variable [DecidableEq N]

theorem truncate_self : (t.truncate n).names n = some (t.inodeFor n) := Function.update_self ..

theorem truncate_names (hm : m ≠ n) : (t.truncate n).names m = t.names m :=
  Function.update_of_ne hm ..

theorem truncate_content (hi : i ≠ t.inodeFor n) : (t.truncate n).content i = t.content i :=
  Function.update_of_ne hi ..

theorem rename_target : (t.rename source target).names target = t.names source := if_pos rfl

theorem truncate_read : (t.truncate n).read n = some [] := by
  simp [read, truncate]

theorem rename_read : (t.rename source target).read target = t.read source :=
  congrArg (fun x => Option.map t.content x) rename_target

theorem rename_names (hsource : n ≠ source) (htarget : n ≠ target) :
    (t.rename source target).names n = t.names n := by
  change (if n = target then _ else _) = _
  rw [if_neg htarget, if_neg hsource]

theorem rename_read_other (hsource : n ≠ source) (htarget : n ≠ target) :
    (t.rename source target).read n = t.read n :=
  congrArg (fun x => Option.map t.content x) (rename_names hsource htarget)

theorem truncate_read_other (hm : m ≠ n) : (t.truncate n).read m = t.read m := by
  unfold read
  rw [truncate_names hm]
  cases hname : t.names m with
  | none => rfl
  | some j => exact congrArg some (truncate_content (inodeFor_ne hname hm))

end

end FileTree

/-! ## What the processes have open -/

/-- An open file: where its bytes are, and where the next write goes. -/
structure Handle where
  inode : Nat
  offset : Nat

structure Shared (ι N : Type) where
  tree : FileTree N
  handle : ι → N → Option Handle
  -- who opened the inode last and under which name, and whether they have synced it since
  opener : Nat → Option (ι × N)
  synced : Nat → Bool

namespace Shared

variable {ι N : Type}

/-- Nothing has been opened yet. -/
def start (t : FileTree N) : Shared ι N := ⟨t, fun _ _ => none, fun _ => none, fun _ => false⟩

/-- To the process `i`, its open file `n` is as it was, unless another has opened it. -/
structure Keeps (i : ι) (n : N) (d d' : Shared ι N) : Prop where
  handle : d'.handle i n = d.handle i n
  opener : ∀ j, d'.opener j = some (i, n) → d.opener j = some (i, n) ∧
    d'.tree.content j = d.tree.content j ∧ d'.synced j = d.synced j

theorem Keeps.refl {i : ι} {n : N} {d : Shared ι N} : Keeps i n d d :=
  ⟨rfl, fun _ hj => ⟨hj, rfl, rfl⟩⟩

variable [DecidableEq ι] [DecidableEq N]

section
variable (d : Shared ι N) (i : ι) (n : N)

def setHandle (h : Handle) : ι → N → Option Handle :=
  Function.update d.handle i (Function.update (d.handle i) n (some h))

def openTruncate : Shared ι N where
  tree := d.tree.truncate n
  handle := d.setHandle i n ⟨d.tree.inodeFor n, 0⟩
  opener := Function.update d.opener (d.tree.inodeFor n) (some (i, n))
  synced := Function.update d.synced (d.tree.inodeFor n) false

def write (h : Handle) (bytes : List UInt8) : Shared ι N where
  tree := d.tree.overwrite h.inode h.offset bytes
  handle := d.setHandle i n ⟨h.inode, h.offset + bytes.length⟩
  opener := d.opener
  synced := d.synced

def sync (h : Handle) : Shared ι N where
  tree := d.tree
  handle := d.handle
  opener := d.opener
  synced := if d.opener h.inode = some (i, n) then Function.update d.synced h.inode true else d.synced

def rename (source target : N) : Shared ι N where
  tree := d.tree.rename source target
  handle := d.handle
  opener := d.opener
  synced := d.synced

end

section
variable {d : Shared ι N} {i k : ι} {n m source target : N} {h : Handle} {bytes : List UInt8}

@[simp] theorem setHandle_self : d.setHandle i n h i n = some h := by simp [setHandle]

theorem setHandle_ne (hne : (k, m) ≠ (i, n)) : d.setHandle k m h i n = d.handle i n := by
  unfold setHandle
  by_cases hk : i = k
  · subst hk
    have hm : n ≠ m := fun e => hne (by rw [e])
    rw [Function.update_self, Function.update_of_ne hm]
  · rw [Function.update_of_ne hk]

theorem openTruncate_opener {j : Nat} (hj : j ≠ d.tree.inodeFor n) :
    (d.openTruncate i n).opener j = d.opener j := Function.update_of_ne hj ..

theorem openTruncate_synced {j : Nat} (hj : j ≠ d.tree.inodeFor n) :
    (d.openTruncate i n).synced j = d.synced j := Function.update_of_ne hj ..

theorem openTruncate_unsynced : (d.openTruncate i n).synced (d.tree.inodeFor n) = false :=
  Function.update_self ..

theorem openTruncate_content {j : Nat} (hj : j ≠ d.tree.inodeFor n) :
    (d.openTruncate i n).tree.content j = d.tree.content j := FileTree.truncate_content hj

theorem openTruncate_names (hm : m ≠ n) : (d.openTruncate i n).tree.names m = d.tree.names m :=
  FileTree.truncate_names hm

theorem keeps_openTruncate (hne : (k, m) ≠ (i, n)) : Keeps i n d (d.openTruncate k m) := by
  refine ⟨setHandle_ne hne, fun j hj => ?_⟩
  change Function.update d.opener (d.tree.inodeFor m) (some (k, m)) j = _ at hj
  by_cases hjm : j = d.tree.inodeFor m
  · rw [hjm, Function.update_self] at hj
    exact absurd (Option.some.inj hj) hne
  · rw [Function.update_of_ne hjm] at hj
    exact ⟨hj, FileTree.truncate_content hjm, Function.update_of_ne hjm ..⟩

theorem keeps_write (hne : (k, m) ≠ (i, n)) (hown : d.opener h.inode = some (k, m)) :
    Keeps i n d (d.write k m h bytes) := by
  refine ⟨setHandle_ne hne, fun j hj => ⟨hj, FileTree.overwrite_content ?_, rfl⟩⟩
  intro e
  rw [e] at hj
  exact hne (Option.some.inj (hown.symm.trans hj))

theorem keeps_sync (hne : (k, m) ≠ (i, n)) : Keeps i n d (d.sync k m h) := by
  refine ⟨rfl, fun j hj => ⟨hj, rfl, ?_⟩⟩
  unfold sync
  split
  · next hown =>
    refine Function.update_of_ne ?_ ..
    intro e
    rw [e] at hj
    exact hne (Option.some.inj (hown.symm.trans hj))
  · rfl

omit [DecidableEq ι] in
theorem keeps_rename : Keeps i n d (d.rename source target) := ⟨rfl, fun _ hj => ⟨hj, rfl, rfl⟩⟩

/-- Syncing one's own file marks it, and no other. -/
theorem sync_synced {j : Nat} (hj : (d.sync i n h).synced j = true) :
    d.synced j = true ∨ j = h.inode ∧ d.opener j = some (i, n) := by
  unfold sync at hj
  by_cases hown : d.opener h.inode = some (i, n)
  · simp only [if_pos hown] at hj
    by_cases hjh : j = h.inode
    · exact .inr ⟨hjh, hjh ▸ hown⟩
    · rw [Function.update_of_ne hjh] at hj
      exact .inl hj
  · simp only [if_neg hown] at hj
    exact .inl hj

theorem synced_sync {j : Nat} (hj : d.synced j = true) : (d.sync i n h).synced j = true := by
  unfold sync
  split
  · by_cases hjh : j = h.inode
    · rw [hjh]
      exact Function.update_self ..
    · exact (Function.update_of_ne hjh ..).trans hj
  · exact hj

theorem sync_own (hown : d.opener h.inode = some (i, n)) : (d.sync i n h).synced h.inode = true := by
  simp [sync, hown]

end

end Shared

end Inodes
