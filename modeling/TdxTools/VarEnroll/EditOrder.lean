import TdxTools.General.KeyedEdits
import TdxTools.VarEnroll.Refinement

namespace TdxTools.VarEnroll.EditOrder

open Python.ByteString Python.Exec Python.Text Python.Files General.KeyedEdits
open Variable Store Codec Enroll VariableMap Operations Refinement

/-- What an edit makes of the variable under its key. -/
def act : Edit → Option Entry → Option Entry
  | .write key value, old => if Storable key (value.over old) then some (value.over old) else old
  | .erase _, _ => none

theorem apply_eq (m : Variables) (e : Edit) : e.apply m = edit Edit.key act m e := by
  cases e with
  | erase key => rfl
  | write key value =>
    rw [Edit.apply, edit, Edit.key, act]
    split
    · rfl
    · exact (Function.update_eq_self key m).symm

section Asked

variable (env : Env) (fuel : Nat)

/-- The edits that a sequence of runs asks for. -/
def editsAsked : List Args → World → List Edit
  | [], _ => []
  | args :: runs, w =>
    (editOf env w args).toList ++ editsAsked runs (varEnroll env fuel args w).2

theorem mapAfter_eq (runs : List Args) (w : World) (m : Variables) :
    mapAfter env fuel runs w m = editAll Edit.key act (editsAsked env fuel runs w) m := by
  induction runs generalizing w m with
  | nil => rfl
  | cons args runs ih =>
    rw [mapAfter, ih, editsAsked, editAll_append]
    cases editOf env w args with
    | none => rfl
    | some e => exact congrArg _ (apply_eq m e)

end Asked

/-- Two sequences of in-place runs that ask for the same edits of each variable,
in the same order, leave FDs with the same variables. The runs for different
variables can come in any order. -/
theorem runs_order_free {env env' : Env} {path path' : Str} (hwrite : ∀ c, env.writeFault c = .none)
    (hwrite' : ∀ c, env'.writeFault c = .none) (n n' : Nat) {runs runs' : List Args}
    (hi : ∀ args ∈ runs, InPlace path args) (hi' : ∀ args ∈ runs', InPlace path' args)
    {w w' : World} {fd fd' : Bytes} {m : Variables} (hfd : w.content env path = some fd)
    (hfd' : w'.content env' path' = some fd') (hm : Represents fd m) (hm' : Represents fd' m)
    (hfits : RunsFit env (n + 1) runs w) (hfits' : RunsFit env' (n' + 1) runs' w')
    (hsame : ∀ k, editsAt Edit.key k (editsAsked env (n + 1) runs w) =
      editsAt Edit.key k (editsAsked env' (n' + 1) runs' w')) :
    ∃ image image' store store',
      (runAll env (n + 1) runs w).content env path = some image ∧
      (runAll env' (n' + 1) runs' w').content env' path' = some image' ∧
      findVarInfo (n + 1) image = .ok (some store) ∧
      findVarInfo (n' + 1) image' = .ok (some store') ∧
      mapOf store.varsList = mapOf store'.varsList := by
  obtain ⟨image, himage, hrep⟩ := runAll_represents hwrite n runs hi w fd m hfd hm hfits
  obtain ⟨image', himage', hrep'⟩ := runAll_represents hwrite' n' runs' hi' w' fd' m hfd' hm' hfits'
  obtain ⟨store, hfind, hmap⟩ := findVarInfo_represents hrep n
  obtain ⟨store', hfind', hmap'⟩ := findVarInfo_represents hrep' n'
  refine ⟨image, image', store, store', himage, himage', hfind, hfind', ?_⟩
  rw [hmap, hmap', mapAfter_eq, mapAfter_eq]
  exact editAll_congr hsame m

def orderWorld : World :=
  { files := fun place =>
      if place = [['o']] then some { content := blankImage 136, ctime := 0 }
      else if place = [['d']] then some { content := [1, 2, 3], ctime := 0 }
      else none
    clock := 0 }

/-- Add the data under this name. -/
def addNamed (name : Str) : Args := { sampleArgs with name := some name }

theorem addNamed_inPlace {name : Str} (h : Ascii name) : InPlace ['o'] (addNamed name) :=
  ⟨rfl, rfl, rfl, .inl rfl, fun _ hn => Option.some.inj hn ▸ h,
    fun _ hg => Option.some.inj hg ▸ rfl⟩

theorem twoNames_inPlace {first second : Str} (h : Ascii first) (h' : Ascii second) :
    ∀ args ∈ [addNamed first, addNamed second], InPlace ['o'] args := by
  intro args hargs
  cases hargs with
  | head => exact addNamed_inPlace h
  | tail _ hargs =>
    obtain rfl := List.mem_singleton.mp hargs
    exact addNamed_inPlace h'

theorem represents_orderImage : Represents (blankImage 136) (fun _ => none) :=
  ⟨blankVolume 136, blankStore 136, [], ⟨by decide +kernel, by decide +kernel, by decide +kernel,
    by decide +kernel, by decide +kernel, by decide +kernel⟩, ⟨136, by decide +kernel⟩,
    List.nodup_nil, rfl⟩

theorem addNamed_fit {first second : Str}
    (h : listFits .reliable 1 orderWorld (addNamed first) = true)
    (h' : listFits .reliable 1 (varEnroll .reliable 1 (addNamed first) orderWorld).2
      (addNamed second) = true) (hfirst : lower first ≠ "dbx".toList)
    (hsecond : lower second ≠ "dbx".toList) :
    RunsFit .reliable 1 [addNamed first, addNamed second] orderWorld :=
  ⟨listFits_sound h, dbxFileWhole_of_ne rfl hfirst, listFits_sound h', dbxFileWhole_of_ne rfl hsecond,
    trivial⟩

theorem runs_order_free_pair : ∃ image image' store store',
    (runAll .reliable 1 [addNamed ['U'], addNamed ['V']] orderWorld).content .reliable ['o'] =
      some image ∧
    (runAll .reliable 1 [addNamed ['V'], addNamed ['U']] orderWorld).content .reliable ['o'] =
      some image' ∧
    findVarInfo 1 image = .ok (some store) ∧ findVarInfo 1 image' = .ok (some store') ∧
    mapOf store.varsList = mapOf store'.varsList :=
  runs_order_free (fun _ => rfl) (fun _ => rfl) 0 0 (twoNames_inPlace (by decide) (by decide))
    (twoNames_inPlace (by decide) (by decide))
    (by decide +kernel) (by decide +kernel) represents_orderImage represents_orderImage
    (addNamed_fit (by decide +kernel) (by decide +kernel) (by decide) (by decide))
    (addNamed_fit (by decide +kernel) (by decide +kernel) (by decide) (by decide))
    (editsAt_perm (by decide +kernel) (by decide +kernel))

end TdxTools.VarEnroll.EditOrder
