import Mathlib.Logic.Function.Basic
import TdxTools.Python.Exec
import TdxTools.Python.Path

namespace TdxTools.Python.Files

open ByteString Text Exec Python.Path

structure File where
  content : Bytes
  ctime : Nat
  deriving DecidableEq

/-- What `time.gmtime()` gives, as long as the year fits two bytes. -/
structure GmTime where
  tmYear : UInt16
  tmMon : UInt8
  tmMday : UInt8
  tmHour : UInt8
  tmMin : UInt8
  tmSec : UInt8

/-- A write may fail before the file is opened, or after it was emptied and so
many bytes of the new content reached it. -/
inductive WriteFault
  | none
  | notOpened
  | cutAfter (n : Nat)
  deriving DecidableEq

/-- The surroundings of a run. Faults and times are given by the number of file
operations done before. -/
structure Env where
  cwd : Place
  readFails : Nat → Bool
  writeFault : Nat → WriteFault
  gmtime : Nat → GmTime

/-- Nothing fails, and it is always the same moment. -/
def Env.reliable : Env :=
  { cwd := [], readFails := fun _ => false, writeFault := fun _ => .none
    gmtime := fun _ => ⟨1970, 1, 1, 0, 0, 0⟩ }

structure World where
  files : Place → Option File
  clock : Nat

namespace World

def empty : World := { files := fun _ => none, clock := 0 }

def tick (w : World) : World := { w with clock := w.clock + 1 }

def put (w : World) (at_ : Place) (content : Bytes) : World :=
  { files := Function.update w.files at_ (some ⟨content, w.clock⟩), clock := w.clock + 1 }

/-- The file a path names, if there is one. -/
def file (env : Env) (w : World) (p : Str) : Option File :=
  if Names p then w.files (resolve env.cwd p) else none

def content (env : Env) (w : World) (p : Str) : Option Bytes := (w.file env p).map File.content

def isfile (env : Env) (w : World) (p : Str) : Bool := (w.file env p).isSome

@[simp] theorem file_tick (env : Env) (w : World) (p : Str) : w.tick.file env p = w.file env p :=
  rfl

@[simp] theorem content_tick (env : Env) (w : World) (p : Str) :
    w.tick.content env p = w.content env p := rfl

theorem file_of_names {env : Env} {w : World} {p : Str} (h : Names p) :
    w.file env p = w.files (resolve env.cwd p) := if_pos h

theorem names_of_file {env : Env} {w : World} {p : Str} (h : (w.file env p).isSome) : Names p := by
  by_contra hp
  rw [file, if_neg hp] at h
  cases h

theorem names_of_content {env : Env} {w : World} {p : Str} {b : Bytes}
    (h : w.content env p = some b) : Names p := by
  by_contra hp
  rw [content, file, if_neg hp] at h
  cases h

theorem content_of_not_names {env : Env} {w : World} {p : Str} (h : ¬ Names p) :
    w.content env p = none := by
  rw [content, file, if_neg h]
  rfl

theorem content_congr {env : Env} {w w' : World} (h : w'.files = w.files) (p : Str) :
    w'.content env p = w.content env p := by
  rw [content, file, h, content, file]

theorem content_put_self (env : Env) (w : World) (p : Str) (h : Names p) (b : Bytes) :
    (w.put (resolve env.cwd p) b).content env p = some b := by
  simp [content, file, h, put]

end World

open World

def readFile (env : Env) (p : Str) : Py World Bytes := fun w =>
  if env.readFails w.clock then (.raised .osError, w.tick)
  else
    match w.content env p with
    | some b => (.ok b, w.tick)
    | none => (.raised .fileNotFoundError, w.tick)

/-- `open(p, 'wb')`, one write of the whole content, and the closing. -/
def writeFile (env : Env) (p : Str) (b : Bytes) : Py World Unit := fun w =>
  if Names p then
    match env.writeFault w.clock with
    | .none => (.ok (), w.put (resolve env.cwd p) b)
    | .notOpened => (.raised .osError, w.tick)
    | .cutAfter n => (.raised .osError, w.put (resolve env.cwd p) (b.take n))
  else (.raised .osError, w.tick)

/-- `shutil.copyfile`. The read is the opening of the source: where a read fails
behind the opening of the destination, the write of that is cut. -/
def copyfile (env : Env) (src dst : Str) : Py World Unit := fun w =>
  if w.isfile env src ∧ Names dst ∧ resolve env.cwd src = resolve env.cwd dst then
    (.raised .sameFileError, w)
  else (readFile env src >>= writeFile env dst) w

def removeFile (env : Env) (p : Str) : Py World Unit := fun w =>
  if w.isfile env p then
    (.ok (), { w with files := Function.update w.files (resolve env.cwd p) none })
  else (.raised .fileNotFoundError, w)

/-- No file but the one at `p` is touched. -/
def Frame (env : Env) (p : Str) (w w' : World) : Prop :=
  ∀ at_, at_ ≠ resolve env.cwd p → w'.files at_ = w.files at_

theorem Frame.refl (env : Env) (p : Str) (w : World) : Frame env p w w := fun _ _ => rfl

theorem Frame.trans {env : Env} {p : Str} {w w' w'' : World} (h : Frame env p w w')
    (h' : Frame env p w' w'') : Frame env p w w'' :=
  fun at_ hat => (h' at_ hat).trans (h at_ hat)

theorem Frame.content {env : Env} {p q : Str} {w w' : World} (h : Frame env p w w')
    (hq : resolve env.cwd q ≠ resolve env.cwd p) : w'.content env q = w.content env q := by
  simp only [World.content, World.file, h _ hq]

theorem readFile_files (env : Env) (p : Str) (w : World) :
    (readFile env p w).2 = w.tick := by
  unfold readFile
  split
  · rfl
  · split <;> rfl

theorem readFile_eq_ok {env : Env} {p : Str} {w w' : World} {b : Bytes}
    (h : readFile env p w = (.ok b, w')) :
    env.readFails w.clock = false ∧ w.content env p = some b ∧ w' = w.tick := by
  unfold readFile at h
  split at h
  · cases h
  · next hr =>
    cases hc : w.content env p with
    | none => rw [hc] at h; cases h
    | some c => rw [hc] at h; cases h; exact ⟨by simpa using hr, rfl, rfl⟩

theorem writeFile_none {env : Env} {p : Str} {b : Bytes} {w : World} (hp : Names p)
    (h : env.writeFault w.clock = .none) :
    writeFile env p b w = (.ok (), w.put (resolve env.cwd p) b) := by
  rw [writeFile, if_pos hp, h]

theorem writeFile_eq_ok {env : Env} {p : Str} {b : Bytes} {w w' : World}
    (h : writeFile env p b w = (.ok (), w')) :
    Names p ∧ env.writeFault w.clock = .none ∧ w' = w.put (resolve env.cwd p) b := by
  unfold writeFile at h
  split at h
  · next hp =>
    cases hf : env.writeFault w.clock with
    | none => rw [hf] at h; cases h; exact ⟨hp, rfl, rfl⟩
    | notOpened => rw [hf] at h; cases h
    | cutAfter n => rw [hf] at h; cases h
  · cases h

theorem copyfile_eq_ok {env : Env} {src dst : Str} {w w' : World}
    (h : copyfile env src dst w = (.ok (), w')) : ∃ b, w.content env src = some b ∧ Names dst ∧
      w' = w.tick.put (resolve env.cwd dst) b := by
  unfold copyfile at h
  split at h
  · cases h
  · obtain ⟨b, w₁, hread, hwrite⟩ := Py.bind_eq_ok.mp h
    obtain ⟨-, hcontent, rfl⟩ := readFile_eq_ok hread
    obtain ⟨hdst, -, hw⟩ := writeFile_eq_ok hwrite
    exact ⟨b, hcontent, hdst, hw⟩

/-- A write that fails and is not cut short leaves the files alone. -/
theorem writeFile_files {env : Env} {p : Str} {b : Bytes} {w w' : World} {o : Outcome Unit}
    (hcut : ∀ n, env.writeFault w.clock ≠ .cutAfter n) (h : writeFile env p b w = (o, w'))
    (ho : o ≠ .ok ()) : w'.files = w.files := by
  unfold writeFile at h
  split at h
  · cases hf : env.writeFault w.clock with
    | none =>
      rw [hf] at h
      cases h
      exact absurd rfl ho
    | notOpened =>
      rw [hf] at h
      cases h
      rfl
    | cutAfter n => exact absurd hf (hcut n)
  · cases h
    rfl

theorem copyfile_files {env : Env} {src dst : Str} {w w' : World} {o : Outcome Unit}
    (hcut : env.readFails w.clock = false → w.content env src ≠ none →
      ∀ n, env.writeFault w.tick.clock ≠ .cutAfter n)
    (h : copyfile env src dst w = (o, w')) (ho : o ≠ .ok ()) : w'.files = w.files := by
  unfold copyfile at h
  split at h
  · cases h
    rfl
  · have htick := readFile_files env src w
    obtain ⟨b, w₁, hread, h⟩ | ⟨o₁, hread, -⟩ := Py.bind_eq_cases h
    · obtain ⟨hr, hb, rfl⟩ := readFile_eq_ok hread
      exact writeFile_files (w := w.tick) (hcut hr (by simp [hb])) h ho
    · rw [hread] at htick
      obtain rfl : w' = w.tick := htick
      rfl

/-- A copy between two places that meets no fault. -/
theorem copyfile_ok {env : Env} {src dst : Str} {w : World} {b : Bytes}
    (hne : resolve env.cwd src ≠ resolve env.cwd dst) (hdst : Names dst)
    (hb : w.content env src = some b) (hr : env.readFails w.clock = false)
    (hf : env.writeFault w.tick.clock = .none) :
    copyfile env src dst w = (.ok (), w.tick.put (resolve env.cwd dst) b) := by
  have hread : readFile env src w = (.ok b, w.tick) := by
    rw [readFile, if_neg (by simp [hr]), hb]
  rw [copyfile, if_neg (fun h => hne h.2.2), Py.bind_ok hread, writeFile_none hdst hf]

/-- A copy of a missing file, and one that meets a fault. -/
theorem copyfile_raised (env : Env) (src dst : Str) (w : World)
    (h : w.content env src = none ∨ env.readFails w.clock = true ∨
      env.writeFault w.tick.clock ≠ .none) :
    ∃ ex w', copyfile env src dst w = (.raised ex, w') := by
  unfold copyfile
  split
  · exact ⟨_, _, rfl⟩
  · by_cases hr : env.readFails w.clock = true
    · have hread : readFile env src w = (.raised .osError, w.tick) := by rw [readFile, if_pos hr]
      exact ⟨_, _, Py.bind_raised hread⟩
    · cases hb : w.content env src with
      | none =>
        have hread : readFile env src w = (.raised .fileNotFoundError, w.tick) := by
          rw [readFile, if_neg hr, hb]
        exact ⟨_, _, Py.bind_raised hread⟩
      | some b =>
        have hread : readFile env src w = (.ok b, w.tick) := by rw [readFile, if_neg hr, hb]
        have hf : env.writeFault w.tick.clock ≠ .none :=
          (h.resolve_left (by simp [hb])).resolve_left hr
        rw [Py.bind_ok hread, writeFile]
        split
        · cases hw : env.writeFault w.tick.clock with
          | none => exact absurd hw hf
          | notOpened => exact ⟨_, _, rfl⟩
          | cutAfter n => exact ⟨_, _, rfl⟩
        · exact ⟨_, _, rfl⟩

/-- A copy that does not come to open its destination. -/
theorem copyfile_unopened {env : Env} {src : Str} (dst : Str) {w : World}
    (h : w.content env src = none ∨ env.readFails w.clock = true ∨
      env.writeFault w.tick.clock = .notOpened) :
    ∃ ex w', copyfile env src dst w = (.raised ex, w') ∧ w'.files = w.files := by
  have hfails : w.content env src = none ∨ env.readFails w.clock = true ∨
      env.writeFault w.tick.clock ≠ .none :=
    h.imp_right (Or.imp_right fun hf => by simp [hf])
  obtain ⟨ex, w', hrun⟩ := copyfile_raised env src dst w hfails
  refine ⟨ex, w', hrun, copyfile_files ?_ hrun (by simp)⟩
  intro hr hb n hcut
  rcases h with hnone | hr' | hf
  · exact hb hnone
  · exact absurd (hr.symm.trans hr') (by simp)
  · cases hf.symm.trans hcut

theorem writeFile_frame (env : Env) (p : Str) (b : Bytes) (w : World) :
    Frame env p w (writeFile env p b w).2 := by
  intro at_ hat
  unfold writeFile
  split
  · cases env.writeFault w.clock <;> simp [put, tick, hat]
  · rfl

/-- Statements that touch no file but the one at `p`. -/
abbrev Touches {α : Type} (env : Env) (p : Str) (x : Py World α) : Prop := Py.Keeps (Frame env p) x

section Touches

variable {env : Env} {p : Str} {α β : Type}

theorem Touches.of_same {x : Py World α} (h : ∀ w, (x w).2 = w) : Touches env p x :=
  Py.Keeps.of_same (Frame.refl env p) h

theorem Touches.bind {x : Py World α} {f : α → Py World β} (hx : Touches env p x)
    (hf : ∀ a, Touches env p (f a)) : Touches env p (x >>= f) :=
  Py.Keeps.bind (R := Frame env p) Frame.trans hx hf

theorem Touches.tryExcept {x : Py World α} {handler : Exn → Py World α} (hx : Touches env p x)
    (hh : ∀ e, Touches env p (handler e)) : Touches env p (Py.tryExcept x handler) :=
  Py.Keeps.tryExcept (R := Frame env p) Frame.trans hx hh

theorem Touches.readFile (q : Str) : Touches env p (readFile env q) := by
  intro w
  rw [readFile_files]
  exact Frame.refl env p w

theorem Touches.copyfile (src : Str) : Touches env p (copyfile env src p) := by
  intro w
  unfold Files.copyfile
  split
  · exact Frame.refl env p w
  · exact Touches.bind (.readFile src) (fun b => writeFile_frame env p b) w

theorem Touches.removeFile : Touches env p (removeFile env p) := by
  intro w at_ hat
  unfold Files.removeFile
  split
  · exact Function.update_of_ne hat _ _
  · rfl

end Touches

end TdxTools.Python.Files
