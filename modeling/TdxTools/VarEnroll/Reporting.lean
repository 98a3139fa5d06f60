import TdxTools.VarEnroll.Enrollment
import TdxTools.VarEnroll.Packing

namespace TdxTools.VarEnroll.Reporting

open Python.ByteString Python.Exec Python.Text Python.Path Python.Files
open Variable Store Codec Enroll VariableMap Operations Refinement Enrollment Submitting Updating
open Packing

/-- A run comes to its operation: the FD is read, a store found in it, and the
arguments pass the check. -/
structure Opened (env : Env) (fuel : Nat) (args : Args) (w : World) (fd : Bytes)
    (store : VariableStore) : Prop where
  reads : env.readFails w.clock = false
  content : w.content env args.input = some fd
  found : findVarInfo fuel fd = .ok (some store)
  passes : Passes env w.tick args

/-- The operation on the store returned `True`, and so did the write of the
image with the new store, which the output file holds. -/
def TookEffect (env : Env) (fuel : Nat) (args : Args) (w w' : World) : Prop :=
  ∃ fd store s path buffer, w.content env args.input = some fd ∧
    findVarInfo fuel fd = .ok (some store) ∧
    operate env args { world := w.tick, store } = (.ok true, s) ∧
    args.output = some path ∧ s.store.syncBuffer fd = .ok buffer ∧
    s.store.syncToFile env fd path s.world = (.ok true, w') ∧ w'.content env path = some buffer

/-- A deletion or an update of a variable that is not there. -/
def Misses (args : Args) (store : VariableStore) : Prop :=
  ∃ name guid attr, args.name = some name ∧ args.guid = some guid ∧
    attributesOf args.attributes = .ok attr ∧
    (args.operation = some .DEL ∨ args.operation = some .UPDATE) ∧ ¬ Held store (looked name guid)

/-- There is content for the store and room for it in the fields of a header. -/
def Enrolls (env : Env) (w : World) (store : VariableStore) (name guid : Str)
    (dataFile : Option Str) (attr : Int) (append : Bool) : Prop :=
  ∃ sub, submission env w name guid dataFile attr append = some sub ∧ Goes store sub append

/-- The operation finds its variable, if it needs one, and has content for it. -/
def Performs (env : Env) (w : World) (store : VariableStore) (name guid : Str)
    (dataFile : Option Str) (attr : Int) : Option VarEnrollOps → Prop
  | some .ADD => Enrolls env w store name guid dataFile attr false
  | some .APPEND => Enrolls env w store name guid dataFile attr true
  | some .DEL => Held store (looked name guid)
  | some .UPDATE => Held store (looked name guid) ∧
      Enrolls env w (store.delVariable name guid).2 name guid dataFile attr true
  | none => False

/-- The arguments, the files and the store are such that the run comes to the
write. -/
def Carried (env : Env) (args : Args) (w : World) (store : VariableStore) : Prop :=
  ∃ name guid attr, args.name = some name ∧ args.guid = some guid ∧
    attributesOf args.attributes = .ok attr ∧
    Performs env w.tick store name guid args.dataFile attr args.operation

/-- The FD was read before the write, and for all but a deletion the data file. -/
def writeClock (args : Args) (w : World) : Nat :=
  if args.operation = some .DEL then w.clock + 1 else w.clock + 2

def CanWrite (env : Env) (args : Args) (w : World) : Prop :=
  ∃ path, args.output = some path ∧ Names path ∧ env.writeFault (writeClock args w) = .none

section Operation

variable {env : Env} {args : Args} {s s' : Session}

theorem operate_eq {name guid : Str} {attr : Int} (hn : args.name = some name)
    (hg : args.guid = some guid) (hattr : attributesOf args.attributes = .ok attr) :
    operate env args s = match args.operation with
      | some .ADD => addVariable env name guid args.dataFile attr false s
      | some .APPEND => addVariable env name guid args.dataFile attr true s
      | some .DEL => delVariable name guid s
      | some .UPDATE => updateVariable env name guid args.dataFile attr s
      | none => (.raised (.exception "Unkown operation - ".toList), s) := by
  rw [operate, hattr, Py.lift_ok_bind_apply]
  simp only [hn, hg]
  cases args.operation with
  | none => rfl
  | some op => cases op <;> rfl

theorem args_of_operate {ret : Bool} (h : operate env args s = (.ok ret, s')) :
    ∃ name guid attr, args.name = some name ∧ args.guid = some guid ∧
      attributesOf args.attributes = .ok attr := by
  obtain ⟨attr, hattr, h⟩ := Py.lift_bind_eq_ok.mp h
  cases hn : args.name with
  | none =>
    simp only [hn] at h
    cases h
  | some name =>
    cases hg : args.guid with
    | none =>
      simp only [hn, hg] at h
      cases h
    | some guid => exact ⟨name, guid, attr, rfl, rfl, hattr⟩

theorem operate_misses (h : Misses args s.store) : operate env args s = (.ok false, s) := by
  obtain ⟨name, guid, attr, hn, hg, hattr, hop, hheld⟩ := h
  rw [operate_eq hn hg hattr]
  cases hop with
  | inl hdel =>
    rw [hdel]
    dsimp only
    rw [delVariable_apply, delVariable_not_held hheld]
  | inr hupdate =>
    rw [hupdate]
    exact updateVariable_not_held hheld

theorem world_of_add {name guid : Str} {dataFile : Option Str} {attr : Int} {append ret : Bool}
    (h : addVariable env name guid dataFile attr append s = (.ok ret, s')) :
    ret = true ∧ s'.world = s.world.tick := by
  obtain ⟨hret, sub, store, -, -, rfl⟩ := addVariable_eq_ok h
  exact ⟨hret, rfl⟩

/-- An operation that returns `False` has missed its variable; one that returns
`True` has read the data file, if it needs one. -/
theorem operate_eq_ok {ret : Bool} (h : operate env args s = (.ok ret, s')) :
    (ret = false → Misses args s.store) ∧ (ret = true → s'.world.clock =
      if args.operation = some .DEL then s.world.clock else s.world.clock + 1) := by
  obtain ⟨name, guid, attr, hn, hg, hattr⟩ := args_of_operate h
  rw [operate_eq hn hg hattr] at h
  cases hop : args.operation with
  | none =>
    rw [hop] at h
    cases h
  | some op =>
    rw [hop] at h
    cases op with
    | ADD | APPEND =>
      obtain ⟨rfl, hworld⟩ := world_of_add h
      exact ⟨by simp, fun _ => by rw [hworld]; rfl⟩
    | DEL =>
      have h : delVariable name guid s = (.ok ret, s') := h
      rw [delVariable_apply] at h
      by_cases hheld : Held s.store (looked name guid)
      · rw [delVariable_held hheld] at h
        cases h
        exact ⟨by simp, fun _ => rfl⟩
      · rw [delVariable_not_held hheld] at h
        cases h
        exact ⟨fun _ => ⟨name, guid, attr, hn, hg, hattr, Or.inl hop, hheld⟩, by simp⟩
    | UPDATE =>
      have h : updateVariable env name guid args.dataFile attr s = (.ok ret, s') := h
      by_cases hheld : Held s.store (looked name guid)
      · rw [updateVariable_held hheld] at h
        obtain ⟨rfl, hworld⟩ := world_of_add h
        exact ⟨by simp, fun _ => by rw [hworld]; rfl⟩
      · rw [updateVariable_not_held hheld] at h
        cases h
        exact ⟨fun _ => ⟨name, guid, attr, hn, hg, hattr, Or.inr hop, hheld⟩, by simp⟩

end Operation

section Carrying

variable {env : Env} {args : Args} {w : World} {fd : Bytes} {store : VariableStore} {s : Session}
  {name guid : Str} {dataFile : Option Str} {attr : Int} {append : Bool}

theorem enrolls_iff (h : AllInFields s.store) :
    (∃ s', addVariable env name guid dataFile attr append s = (.ok true, s') ∧
      AllInFields s'.store) ↔ Enrolls env s.world s.store name guid dataFile attr append := by
  constructor
  · rintro ⟨s', hadd, hall⟩
    obtain ⟨-, sub, store', hsub, hinto, rfl⟩ := addVariable_eq_ok hadd
    exact ⟨sub, hsub, (goes_iff env s.world.tick h).mp ⟨store', hinto, hall⟩⟩
  · rintro ⟨sub, hsub, hgoes⟩
    obtain ⟨store', hinto, hall⟩ := (goes_iff env s.world.tick h).mpr hgoes
    exact ⟨_, addVariable_accepted hsub hinto, hall⟩

theorem performs_iff (hn : args.name = some name) (hg : args.guid = some guid)
    (hattr : attributesOf args.attributes = .ok attr) (h : AllInFields s.store) :
    (∃ s', operate env args s = (.ok true, s') ∧ AllInFields s'.store) ↔
      Performs env s.world s.store name guid args.dataFile attr args.operation := by
  rw [operate_eq hn hg hattr]
  cases args.operation with
  | none => simp [Performs]
  | some op =>
    cases op with
    | ADD | APPEND => exact enrolls_iff h
    | DEL =>
      dsimp only [Performs]
      rw [delVariable_apply]
      by_cases hheld : Held s.store (looked name guid)
      · have hall : AllInFields (s.store.delVariable name guid).2 := allInFields_delVariable h
        refine iff_of_true ⟨{ s with store := (s.store.delVariable name guid).2 }, ?_, hall⟩ hheld
        rw [delVariable_held hheld]
      · refine iff_of_false ?_ hheld
        rintro ⟨s', hdel, -⟩
        rw [delVariable_not_held hheld] at hdel
        cases hdel
    | UPDATE =>
      dsimp only [Performs]
      by_cases hheld : Held s.store (looked name guid)
      · have herased : (erased name guid s).store = (s.store.delVariable name guid).2 := by
          rw [delVariable_held hheld]
        have hall : AllInFields (erased name guid s).store := herased ▸ allInFields_delVariable h
        rw [updateVariable_held hheld, enrolls_iff hall, herased, and_iff_right hheld]
      · refine iff_of_false ?_ (fun hp => hheld hp.1)
        rintro ⟨s', hupdate, -⟩
        rw [updateVariable_not_held hheld] at hupdate
        cases hupdate

/-- Whether a run comes to the write is seen from its arguments, the files and
the store that was read. -/
theorem carried_iff {fuel : Nat} (hfound : findVarInfo fuel fd = .ok (some store)) :
    (∃ s buffer, operate env args { world := w.tick, store } = (.ok true, s) ∧
      s.store.syncBuffer fd = .ok buffer) ↔ Carried env args w store := by
  have hread : AllInFields store := allInFields_of_find hfound
  constructor
  · rintro ⟨s, buffer, hop, hbuffer⟩
    obtain ⟨name, guid, attr, hn, hg, hattr⟩ := args_of_operate hop
    have hall : AllInFields s.store := (syncBuffer_iff fd).mp ⟨buffer, hbuffer⟩
    exact ⟨name, guid, attr, hn, hg, hattr,
      (performs_iff (s := { world := w.tick, store }) hn hg hattr hread).mp ⟨s, hop, hall⟩⟩
  · rintro ⟨name, guid, attr, hn, hg, hattr, hperforms⟩
    obtain ⟨s, hop, hall⟩ :=
      (performs_iff (s := { world := w.tick, store }) hn hg hattr hread).mpr hperforms
    obtain ⟨buffer, hbuffer⟩ := (syncBuffer_iff fd).mpr hall
    exact ⟨s, buffer, hop, hbuffer⟩

end Carrying

section Writing

variable {env : Env} {args : Args} {w : World} {fd buffer : Bytes} {store : VariableStore}
  {s : Session}

theorem clock_of_operate
    (hop : operate env args { world := w.tick, store } = (.ok true, s)) :
    s.world.clock = writeClock args w := by
  rw [(operate_eq_ok hop).2 rfl, writeClock]
  rfl

theorem syncToFile_unwritten {self : VariableStore} {path : Str}
    (hbuffer : self.syncBuffer fd = .ok buffer)
    (h : ¬ (Names path ∧ env.writeFault w.clock = .none)) :
    ∃ w', self.syncToFile env fd path w = (.ok false, w') := by
  have hraise : ∃ e w', writeFile env path buffer w = (.raised e, w') := by
    rw [writeFile]
    split
    · next hpath =>
      cases hfault : env.writeFault w.clock with
      | none => exact absurd ⟨hpath, hfault⟩ h
      | notOpened => exact ⟨_, _, rfl⟩
      | cutAfter n => exact ⟨_, _, rfl⟩
    · exact ⟨_, _, rfl⟩
  obtain ⟨e, w', hraise⟩ := hraise
  refine ⟨w', ?_⟩
  rw [VariableStore.syncToFile, hbuffer, Py.lift_ok_bind_apply,
    Py.tryExcept_raised (Py.bind_raised hraise)]
  rfl

theorem processVar_no_output (hout : args.output = none)
    (hop : operate env args { world := w.tick, store } = (.ok true, s))
    (hbuffer : s.store.syncBuffer fd = .ok buffer) :
    processVar env args fd { world := w.tick, store } = (.ok false, s) := by
  rw [processVar, Py.bind_ok hop, if_pos rfl, Py.get_bind_apply, hout]
  dsimp only
  rw [hbuffer, Py.lift_ok_bind_apply]
  rfl

theorem processVar_unwritten (hop : operate env args { world := w.tick, store } = (.ok true, s))
    (hbuffer : s.store.syncBuffer fd = .ok buffer) (h : ¬ CanWrite env args w) :
    ∃ s', processVar env args fd { world := w.tick, store } = (.ok false, s') ∧
      ∀ path w', args.output = some path →
        s.store.syncToFile env fd path s.world ≠ (.ok true, w') := by
  cases hout : args.output with
  | none => exact ⟨s, processVar_no_output hout hop hbuffer, by simp⟩
  | some path =>
    have hnot : ¬ (Names path ∧ env.writeFault s.world.clock = .none) := by
      rw [clock_of_operate hop]
      exact fun hcan => h ⟨path, hout, hcan⟩
    obtain ⟨w', hsync⟩ := syncToFile_unwritten hbuffer hnot
    refine ⟨{ s with world := w' }, ?_, ?_⟩
    · rw [processVar_true hout hop, hsync]
    · intro path' w₁ hpath'
      obtain rfl := Option.some.inj hpath'
      rw [hsync]
      simp

end Writing

section Truth

variable {env : Env} {fuel : Nat} {args : Args} {w : World} {fd : Bytes} {store : VariableStore}

theorem TookEffect.of_opened {w' : World} (h : TookEffect env fuel args w w')
    (ho : Opened env fuel args w fd store) : ∃ s path,
      operate env args { world := w.tick, store } = (.ok true, s) ∧ args.output = some path ∧
      s.store.syncToFile env fd path s.world = (.ok true, w') := by
  obtain ⟨fd', store', s, path, buffer, hfd, hfound, hop, hout, -, hsync, -⟩ := h
  obtain rfl : fd = fd' := Option.some.inj (ho.content.symm.trans hfd)
  obtain rfl : store = store' :=
    Option.some.inj (Outcome.ok.inj (ho.found.symm.trans hfound))
  exact ⟨s, path, hop, hout, hsync⟩

variable (hinfo : args.info = false)
include hinfo

theorem not_misses (ho : Opened env fuel args w fd store)
    (h : ∀ w', varEnroll env fuel args w = (.ok true, w') → TookEffect env fuel args w w') :
    ¬ Misses args store := by
  intro hmiss
  have hop : operate env args { world := w.tick, store } = (.ok false, { world := w.tick, store }) :=
    operate_misses hmiss
  have hrun := varEnroll_done ho.reads ho.content ho.found hinfo ho.passes (processVar_false hop)
  obtain ⟨s, path, hop', -, -⟩ := (h _ hrun).of_opened ho
  rw [hop] at hop'
  cases hop'

theorem canWrite_of_carried (ho : Opened env fuel args w fd store)
    (h : ∀ w', varEnroll env fuel args w = (.ok true, w') → TookEffect env fuel args w w')
    (hc : Carried env args w store) : CanWrite env args w := by
  by_contra hnot
  obtain ⟨s, buffer, hop, hbuffer⟩ := (carried_iff ho.found).mpr hc
  obtain ⟨s', hrun, hfailed⟩ := processVar_unwritten hop hbuffer hnot
  have hrun := varEnroll_done ho.reads ho.content ho.found hinfo ho.passes hrun
  obtain ⟨s₁, path, hop', hout, hsync⟩ := (h _ hrun).of_opened ho
  rw [hop] at hop'
  cases hop'
  exact hfailed path _ hout hsync

theorem opened_of_true {w' : World} (h : varEnroll env fuel args w = (.ok true, w')) :
    ∃ fd store b s', Opened env fuel args w fd store ∧
      processVar env args fd { world := w.tick, store } = (.ok b, s') ∧ w' = s'.world := by
  obtain ⟨fd, store, b, s', hfd, hfound, hp, hrun, hw⟩ := varEnroll_eq_true hinfo h
  refine ⟨fd, store, b, s', ⟨?_, hfd, hfound, hp⟩, hrun, hw⟩
  cases hread : env.readFails w.clock with
  | false => rfl
  | true =>
    rw [varEnroll_unread hread] at h
    cases h

/-- `True` means that the operation took effect exactly when no variable is
missed and every write that is reached goes through. -/
theorem reports_truth_iff :
    (∀ w', varEnroll env fuel args w = (.ok true, w') → TookEffect env fuel args w w') ↔
      ∀ fd store, Opened env fuel args w fd store →
        ¬ Misses args store ∧ (Carried env args w store → CanWrite env args w) := by
  constructor
  · intro h fd store ho
    exact ⟨not_misses hinfo ho h, canWrite_of_carried hinfo ho h⟩
  · intro h w' hrun
    obtain ⟨fd, store, b, s', ho, hvar, rfl⟩ := opened_of_true hinfo hrun
    obtain ⟨hmiss, hcan⟩ := h fd store ho
    obtain ⟨ret, s, hop, hrest⟩ := Py.bind_eq_ok.mp hvar
    cases ret with
    | false => exact absurd ((operate_eq_ok hop).1 rfl) hmiss
    | true =>
      cases hout : args.output with
      | none =>
        rw [if_pos rfl, Py.get_bind_apply, hout] at hrest
        obtain ⟨buffer, hbuffer, -⟩ := Py.lift_bind_eq_ok.mp hrest
        obtain ⟨path, hpath, -⟩ := hcan ((carried_iff ho.found).mp ⟨s, buffer, hop, hbuffer⟩)
        rw [hout] at hpath
        cases hpath
      | some path =>
        rw [processVar_true hout hop, Prod.mk.injEq] at hvar
        obtain ⟨buffer, hbuffer, -⟩ := Py.lift_bind_eq_ok.mp (Prod.ext hvar.1 rfl :
          s.store.syncToFile env fd path s.world = (.ok b, _))
        obtain ⟨path', hpath', hnames, hfault⟩ := hcan ((carried_iff ho.found).mp ⟨s, buffer, hop, hbuffer⟩)
        obtain rfl : path = path' := Option.some.inj (hout.symm.trans hpath')
        rw [← clock_of_operate hop] at hfault
        have hsync := syncToFile_ok hbuffer hnames hfault
        have hworld : s'.world = s.world.put (resolve env.cwd path) buffer := by
          rw [← hvar.2, hsync]
        refine ⟨fd, store, s, path, buffer, ho.content, ho.found, hop, hout, hbuffer, ?_, ?_⟩
        · rw [hworld]
          exact hsync
        · rw [hworld]
          exact World.content_put_self env s.world path hnames buffer

end Truth

theorem reports_truth_iff_sample :
    (∀ w', varEnroll .reliable 1 sampleArgs sampleWorld = (.ok true, w') →
      TookEffect .reliable 1 sampleArgs sampleWorld w') ↔
      ∀ fd store, Opened .reliable 1 sampleArgs sampleWorld fd store →
        ¬ Misses sampleArgs store ∧
          (Carried .reliable sampleArgs sampleWorld store →
            CanWrite .reliable sampleArgs sampleWorld) :=
  reports_truth_iff rfl

def deleteArgs : Args := { sampleArgs with operation := some .DEL }

/-- No file can be opened for writing. -/
def readOnly : Env := { Env.reliable with writeFault := fun _ => .notOpened }

theorem opened_deleteArgs :
    Opened .reliable 1 deleteArgs sampleWorld (blankImage 68) (blankStore 68) where
  reads := rfl
  content := by decide +kernel
  found := by decide +kernel
  passes := ⟨['V'], _, rfl, rfl, by decide +kernel, Or.inl rfl⟩

/-- Deleting a variable that is not there returns `True`, and so does a run
whose output cannot be written. -/
theorem failures_reported_true :
    (varEnroll .reliable 1 deleteArgs sampleWorld).1 = .ok true ∧
      ¬ (∀ w', varEnroll .reliable 1 deleteArgs sampleWorld = (.ok true, w') →
        TookEffect .reliable 1 deleteArgs sampleWorld w') ∧
      (varEnroll readOnly 1 sampleArgs sampleWorld).1 = .ok true ∧
      (varEnroll readOnly 1 sampleArgs sampleWorld).2.content readOnly ['o'] =
        some (blankImage 68) := by
  refine ⟨by decide +kernel, fun h => ?_, by decide +kernel, by decide +kernel⟩
  apply not_misses rfl opened_deleteArgs h
  refine ⟨['V'], _, 7, rfl, rfl, by decide +kernel, Or.inl rfl, ?_⟩
  rintro ⟨v, hv, -⟩
  cases hv

end TdxTools.VarEnroll.Reporting
