import TdxTools.Python.Files

namespace TdxTools.Python.FileTimes

open ByteString Text Exec Python.Path Files

/-- Every file was created before the next moment of the clock. -/
def Timed (w : World) : Prop := ∀ at_ f, w.files at_ = some f → f.ctime < w.clock

/-- What may happen to the times in a step. -/
def KeepsTimes (w w' : World) : Prop := Timed w → Timed w'

theorem KeepsTimes.refl (w : World) : KeepsTimes w w := id

theorem KeepsTimes.trans {w w' w'' : World} (h : KeepsTimes w w') (h' : KeepsTimes w' w'') :
    KeepsTimes w w'' := h' ∘ h

section Times

variable {env : Env} {w : World}

theorem timed_empty : Timed World.empty := by
  intro at_ f hf
  cases hf

theorem Timed.later (h : Timed w) (n : Nat) : Timed { w with clock := w.clock + n } := by
  intro at_ f hf
  exact (h at_ f hf).trans_le (Nat.le_add_right _ _)

theorem files_put_self (at_ : Place) (b : Bytes) :
    (w.put at_ b).files at_ = some ⟨b, w.clock⟩ := Function.update_self _ _ _

theorem files_put_of_ne {at_ p : Place} (h : p ≠ at_) (b : Bytes) :
    (w.put at_ b).files p = w.files p := Function.update_of_ne h _ _

theorem Timed.put (h : Timed w) (at_ : Place) (b : Bytes) : Timed (w.put at_ b) := by
  intro p f hf
  by_cases hp : p = at_
  · rw [hp, files_put_self, Option.some.injEq] at hf
    rw [← hf]
    exact Nat.lt_succ_self _
  · rw [files_put_of_ne hp] at hf
    exact (h p f hf).trans (Nat.lt_succ_self _)

theorem Timed.remove (h : Timed w) (at_ : Place) :
    Timed { w with files := Function.update w.files at_ none } := by
  intro p f hf
  by_cases hp : p = at_
  · subst hp
    exact absurd hf (by simp)
  · have hold : Function.update w.files at_ none p = w.files p := Function.update_of_ne hp _ _
    exact h p f (hold.symm.trans hf)

theorem keepsTimes_readFile (p : Str) : Py.Keeps KeepsTimes (readFile env p) := by
  intro w h
  rw [readFile_files]
  exact h.later 1

theorem keepsTimes_writeFile (p : Str) (b : Bytes) : Py.Keeps KeepsTimes (writeFile env p b) := by
  intro w h
  unfold writeFile
  split
  · cases env.writeFault w.clock with
    | none => exact h.put _ _
    | notOpened => exact h.later 1
    | cutAfter n => exact h.put _ _
  · exact h.later 1

theorem keepsTimes_copyfile (src dst : Str) : Py.Keeps KeepsTimes (copyfile env src dst) := by
  intro w
  unfold copyfile
  split
  · exact KeepsTimes.refl w
  · exact Py.Keeps.bind (R := KeepsTimes) KeepsTimes.trans (keepsTimes_readFile src)
      (fun b => keepsTimes_writeFile dst b) w

theorem keepsTimes_removeFile (p : Str) : Py.Keeps KeepsTimes (removeFile env p) := by
  intro w h
  unfold removeFile
  split
  · exact h.remove _
  · exact h

end Times

section Newer

/-- The second of two files, unless the first is there and the second is missing or older. -/
def newer : Option File → Option File → Option File
  | none, g => g
  | some f, none => some f
  | some f, some g => if f.ctime > g.ctime then some f else some g

theorem newer_self (f : Option File) : newer f f = f := by
  cases f with
  | none => rfl
  | some f => rw [newer, if_neg (Nat.lt_irrefl _)]

variable {w : World} {p q at_ : Place}

/-- What is written to one of two places is the newer of them. -/
theorem newer_put (h : Timed w) (hat : at_ = p ∨ at_ = q) (b : Bytes) :
    newer ((w.put at_ b).files p) ((w.put at_ b).files q) = some ⟨b, w.clock⟩ := by
  by_cases hp : p = at_
  · rw [hp, files_put_self]
    by_cases hq : q = at_
    · rw [hq, files_put_self, newer, if_neg (Nat.lt_irrefl _)]
    · rw [files_put_of_ne hq]
      cases hg : w.files q with
      | none => rfl
      | some g => rw [newer, if_pos (h q g hg)]
  · have hq : q = at_ := (hat.resolve_left (Ne.symm hp)).symm
    rw [hq, files_put_self, files_put_of_ne hp]
    cases hf : w.files p with
    | none => rfl
    | some f => rw [newer, if_neg (Nat.lt_asymm (h p f hf))]

theorem newer_put_other (hp : p ≠ at_) (hq : q ≠ at_) (b : Bytes) :
    newer ((w.put at_ b).files p) ((w.put at_ b).files q) = newer (w.files p) (w.files q) := by
  rw [files_put_of_ne hp, files_put_of_ne hq]

end Newer

end TdxTools.Python.FileTimes
