import TdxTools.VarEnroll.EditOrder
import TdxTools.VarEnroll.SecureBoot

namespace TdxTools.FullDiskEncryption.EnrollVars

open Python.ByteString Python.Exec Python.Text Python.Path Python.Files General.KeyedEdits
open VarEnroll.Guid VarEnroll.Variable VarEnroll.Store VarEnroll.Codec VarEnroll.Enroll
open VarEnroll.VariableMap VarEnroll.Operations VarEnroll.Refinement VarEnroll.EditOrder
open VarEnroll.SecureBoot

/-- The arguments of `enroll_vars.py`; what was not given is `none`. -/
structure EnrollArgs where
  input : Str := "OVMF.fd".toList
  out : Str := "OVMF_FDE.fd".toList
  name : Option Str := none
  guid : Option Str := none
  data : Option Str := none

/-- The `VarEnrollParams` of a call that has all its values. -/
def EnrollArgs.params (args : EnrollArgs) : Option Args :=
  if args.name ≠ none ∧ args.guid ≠ none ∧ args.data ≠ none then
    some { input := args.input, output := some args.out, dataFile := args.data, guid := args.guid
           name := args.name, attributes := some ['7'], operation := some .ADD }
  else none

def main (env : Env) (fuel : Nat) (args : EnrollArgs) : Py World Unit :=
  match args.params with
  | some params => do
    let _ ← varEnroll env fuel params
    pure ()
  | none => pure ()

/-- One call of the script after the other. -/
def mainAll (env : Env) (fuel : Nat) : List EnrollArgs → World → World
  | [], w => w
  | args :: calls, w => mainAll env fuel calls (main env fuel args w).2

section Calls

variable {env : Env} {fuel : Nat}

theorem mainAll_eq (calls : List EnrollArgs) (w : World) :
    mainAll env fuel calls w = runAll env fuel (calls.filterMap EnrollArgs.params) w := by
  induction calls generalizing w with
  | nil => rfl
  | cons args calls ih =>
    rw [mainAll, ih, main]
    cases hparams : args.params with
    | none =>
      rw [List.filterMap_cons_none hparams]
      rfl
    | some params =>
      rw [List.filterMap_cons_some hparams, runAll]
      exact congrArg _ (Py.snd_bind_pure _ _ w)

end Calls

/-- A general variable and the file with its data. -/
structure Provision where
  name : Str
  guid : Str
  dataFile : Str
  ascii : Ascii name
  not_key : lower name ∉ keyNames
  isGuid_guid : isGuid (some guid) = true
  length_guid : guid.length = 36

namespace Provision

variable (p : Provision)

/-- The call that enrolls it into an FD, in place. -/
def call (path : Str) : EnrollArgs :=
  { input := path, out := path, name := some p.name, guid := some p.guid, data := some p.dataFile }

def params (path : Str) : Args :=
  { input := path, output := some path, dataFile := some p.dataFile, guid := some p.guid
    name := some p.name, attributes := some ['7'], operation := some .ADD }

def key : Key := (str2blob p.name, (str2guid (some p.guid)).value.getD [])

theorem params_inPlace (path : Str) : InPlace path (p.params path) :=
  ⟨rfl, rfl, rfl, .inl rfl, fun _ hn => Option.some.inj hn ▸ p.ascii,
    fun _ hg => Option.some.inj hg ▸ p.length_guid⟩

theorem str2guid_guid : str2guid (some p.guid) = .ok p.key.2 := by
  obtain ⟨g, hg, -⟩ := str2guid_canonical p.guid p.isGuid_guid p.length_guid
  rw [key, hg]
  rfl

/-- What is written under the key. -/
def value (data : Bytes) : Value :=
  { attributes := 7, timeStamp := EfiTime.zero.blob, data, append := false }

theorem storable_value {data : Bytes} (old : Option Entry) (hname : p.key.1.length < 2 ^ 32)
    (hdata : data.length < 2 ^ 32) : Storable p.key ((value data).over old) := by
  have hattributes : (0 : Int) ≤ 7 ∧ (7 : Int) < 2 ^ 32 := by decide
  cases old with
  | none => exact ⟨hattributes.1, hattributes.2, hname, hdata⟩
  | some old => exact ⟨hattributes.1, hattributes.2, hname, hdata⟩

theorem data_over (data : Bytes) (old : Option Entry) : ((value data).over old).data = data := by
  cases old <;> rfl

theorem editOf_params {env : Env} {w : World} {data : Bytes} (path : Str)
    (hreads : ∀ c, env.readFails c = false) (hdata : w.content env p.dataFile = some data) :
    editOf env w (p.params path) = some (.write p.key (value data)) := by
  have hattr : attributesOf (p.params path).attributes = .ok 7 :=
    (by decide : attributesOf (some ['7']) = .ok 7)
  obtain ⟨hcert, hdbx⟩ := certKey_eq_none p.not_key
  have hread : dataOf env w.tick (some p.dataFile) = some data := by
    rw [dataOf, if_neg (by simp [hreads])]
    exact hdata
  have hedit : contentEdit (.now (env.gmtime (w.clock + 2))) p.name p.key.2 (some ['7']) false =
      fun data => some (.write (str2blob p.name, p.key.2) (value data)) :=
    contentEdit_other hcert hdbx (by decide)
  have hedits : editOf env w (p.params path) = (dataOf env w.tick (some p.dataFile)).bind
      (contentEdit (.now (env.gmtime (w.clock + 2))) p.name p.key.2 (some ['7']) false) :=
    editOf_eq (hreads w.clock) rfl rfl p.isGuid_guid p.str2guid_guid hattr
  rw [hedits, hread, hedit]
  rfl

end Provision

section Provisioned

variable {env : Env} {fuel : Nat} {path : Str} {ps : List Provision} {data : Provision → Bytes}

theorem editsAsked_provisions (hreads : ∀ c, env.readFails c = false)
    (hapart : ∀ p ∈ ps, resolve env.cwd p.dataFile ≠ resolve env.cwd path) {w : World}
    (hdata : ∀ p ∈ ps, w.content env p.dataFile = some (data p)) :
    editsAsked env fuel (ps.map (·.params path)) w =
      ps.map fun p => .write p.key (Provision.value (data p)) := by
  induction ps generalizing w with
  | nil => rfl
  | cons p ps ih =>
    have hframe : Frame env path w (varEnroll env fuel (p.params path) w).2 :=
      touches_varEnroll rfl fuel w
    rw [List.map_cons, editsAsked,
      p.editOf_params path hreads (hdata p List.mem_cons_self), List.map_cons]
    refine congrArg _ (ih (fun q hq => hapart q (List.mem_cons_of_mem p hq)) fun q hq => ?_)
    rw [hframe.content (hapart q (List.mem_cons_of_mem p hq))]
    exact hdata q (List.mem_cons_of_mem p hq)

/-- The script leaves an FD with every variable that it was called for, as it is
in its file, and with the other variables as they were. -/
theorem provisioned_map (hwrite : ∀ c, env.writeFault c = .none)
    (hreads : ∀ c, env.readFails c = false) (n : Nat) {w : World} {fd : Bytes} {m : Variables}
    (hfd : w.content env path = some fd) (hm : Represents fd m)
    (hapart : ∀ p ∈ ps, resolve env.cwd p.dataFile ≠ resolve env.cwd path)
    (hdata : ∀ p ∈ ps, w.content env p.dataFile = some (data p))
    (hkeys : (ps.map Provision.key).Nodup)
    (hroom : ∀ p ∈ ps, p.key.1.length < 2 ^ 32 ∧ (data p).length < 2 ^ 32)
    (hfits : RunsFit env (n + 1) (ps.map (·.params path)) w) : ∃ fd' m',
      (mainAll env (n + 1) (ps.map (·.call path)) w).content env path = some fd' ∧
      Represents fd' m' ∧
      (∀ p ∈ ps, m' p.key = some ((Provision.value (data p)).over (m p.key))) ∧
      ∀ k ∉ ps.map Provision.key, m' k = m k := by
  have hruns : (ps.map (·.call path)).filterMap EnrollArgs.params = ps.map (·.params path) := by
    rw [List.filterMap_map]
    exact congrFun List.filterMap_eq_map ps
  obtain ⟨fd', hfd', hm'⟩ := runAll_represents hwrite n (ps.map (·.params path))
    (fun args hargs => by
      obtain ⟨p, -, rfl⟩ := List.mem_map.mp hargs
      exact p.params_inPlace path) w fd m hfd hm hfits
  rw [mapAfter_eq, editsAsked_provisions hreads hapart hdata] at hm'
  have hmap : (ps.map fun p => Edit.write p.key (Provision.value (data p))).map Edit.key =
      ps.map Provision.key := by
    rw [List.map_map]
    rfl
  refine ⟨fd', _, by rw [mainAll_eq, hruns]; exact hfd', hm', ?_, ?_⟩
  · intro p hp
    have hact : act (.write p.key (Provision.value (data p))) (m p.key) =
        some ((Provision.value (data p)).over (m p.key)) :=
      if_pos (p.storable_value _ (hroom p hp).1 (hroom p hp).2)
    rw [← hact]
    exact editAll_of_mem (hmap ▸ hkeys) (List.mem_map_of_mem hp) m
  · intro k hk
    exact editAll_of_not_mem (hmap ▸ hk) m

end Provisioned

end TdxTools.FullDiskEncryption.EnrollVars
