import Mathlib.Logic.Function.Basic

/-
  Files — named files, written and renamed

  A disk has a file under a name or none. A file has its content and an owner: on
  whose behalf it was written, which a rename takes along. `OnlyAt n` is the frame
  of an operation on the one name `n`.
-/

namespace Files

structure File (τ : Type) where
  content : String
  owner : τ
  deriving DecidableEq

abbrev Disk (N τ : Type) := N → Option (File τ)

section
variable {N τ : Type} {d d' d'' : Disk N τ} {n : N} {f : File τ}

/-- Nothing has changed but perhaps the file `n`. -/
def OnlyAt (n : N) (d d' : Disk N τ) : Prop := ∀ m, m ≠ n → d' m = d m

theorem OnlyAt.refl (n : N) (d : Disk N τ) : OnlyAt n d d := fun _ _ => rfl

theorem OnlyAt.trans (h₁ : OnlyAt n d d') (h₂ : OnlyAt n d' d'') : OnlyAt n d d'' :=
  fun m hm => (h₂ m hm).trans (h₁ m hm)

variable [DecidableEq N]

def put (d : Disk N τ) (n : N) (f : File τ) : Disk N τ := Function.update d n (some f)

/-- A rename: the file goes over to the target, whatever was there. -/
def move (d : Disk N τ) (source target : N) : Disk N τ :=
  fun n => if n = target then d source else if n = source then none else d n

@[simp] theorem put_same : put d n f n = some f := Function.update_self ..

theorem put_onlyAt : OnlyAt n d (put d n f) := fun _ h => Function.update_of_ne h _ _

@[simp] theorem move_target {source target : N} : move d source target target = d source := by
  simp [move]

theorem move_other {source target m : N} (hsource : m ≠ source) (htarget : m ≠ target) :
    move d source target m = d m := by
  simp [move, hsource, htarget]

end

end Files
