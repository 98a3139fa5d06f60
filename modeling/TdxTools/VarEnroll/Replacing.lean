import TdxTools.VarEnroll.Rewrite
import TdxTools.VarEnroll.VariableMap

namespace TdxTools.VarEnroll.Replacing

open Python.ByteString Python.Exec Python.Text Python.Table
open Guid Variable Store Codec VariableMap Rewrite

/-- The data that a list has for a key; the first variable with the key decides. -/
def dataAt (vars : List VariableTimeBasedAuth) : Key → Option Bytes :=
  lookup keyOf VariableTimeBasedAuth.data vars

theorem dataAt_readBack {vars vars' : List VariableTimeBasedAuth}
    (h : List.Forall₂ ReadBack vars vars') : dataAt vars' = dataAt vars := by
  induction h with
  | nil => rfl
  | @cons v u vars vars' hv _ ih =>
    have hkey : keyOf u = keyOf v := Prod.ext hv.name_eq hv.guid_eq
    rw [dataAt, dataAt, lookup_cons, lookup_cons, hkey, hv.data_eq]
    exact congrArg (Function.update · (keyOf v) (some v.data)) ih

/-- The length of the list on file once it has this content for the key. -/
def sizeWith (k : Key) (content : Bytes) (vars : List VariableTimeBasedAuth) : Nat :=
  totalSize (vars.eraseP (fun v => keyOf v = k)) +
    alignBy4 (HEADER_SIZE + k.1.length + content.length)

theorem totalSize_modify {p : VariableTimeBasedAuth → Bool} {vars : List VariableTimeBasedAuth}
    {x : VariableTimeBasedAuth} (f : VariableTimeBasedAuth → VariableTimeBasedAuth)
    (hx : vars.find? p = some x) : totalSize (vars.modify (vars.findIdx p) f) =
      totalSize (vars.eraseP p) + paddedSize (f x) := by
  induction vars with
  | nil => cases hx
  | cons v vars ih =>
    simp only [totalSize] at ih ⊢
    cases hp : p v with
    | true =>
      rw [List.find?_cons_of_pos hp, Option.some.injEq] at hx
      rw [List.findIdx_cons, hp, cond_true, List.modify_zero_cons, List.eraseP_cons_of_pos hp,
        List.map_cons, List.sum_cons, hx, Nat.add_comm]
    | false =>
      have hn : ¬ p v = true := by simp [hp]
      rw [List.find?_cons_of_neg hn] at hx
      rw [List.findIdx_cons, hp, cond_false, List.modify_succ_cons, List.eraseP_cons_of_neg hn,
        List.map_cons, List.map_cons, List.sum_cons, List.sum_cons, ih hx, Nat.add_assoc]

/-- The names are as long as declared, and so are the data that stay when the
first variable with the key is given a content. -/
structure Kept (k : Key) (vars : List VariableTimeBasedAuth) : Prop where
  named : ∀ v ∈ vars, v.nameSize = v.nameBlob.length
  sized : ∀ v ∈ vars.eraseP (fun v => keyOf v = k), v.dataSize = v.data.length

/-- The list after a variable was given a content, of the size the caller says. -/
structure Replaced (k : Key) (content : Bytes) (size : Int)
    (vars vars' : List VariableTimeBasedAuth) : Prop where
  data_eq : dataAt vars' = Function.update (dataAt vars) k (some content)
  totalSize_eq : totalSize vars' = sizeWith k content vars
  has_new : ∃ v ∈ vars', v.dataSize = size
  sound : size = content.length → Kept k vars → ∀ v ∈ vars', Sound v

section Lookup

variable {name vendorGuid : Str} {k : Key} {vars : List VariableTimeBasedAuth}

theorem finds (ha : Addresses name vendorGuid k) (hs : ∀ v ∈ vars, Held v) :
    Finds keyOf (VariableStore.isVar name vendorGuid) k vars := by
  intro v hv
  exact ha.isVar_iff (hs v hv).vendorGuid_length (hs v hv).guidStr_eq

theorem length_of_found (hs : ∀ v ∈ vars, Held v) {x : VariableTimeBasedAuth}
    (hx : vars.find? (VariableStore.isVar name vendorGuid) = some x) : vendorGuid.length = 36 := by
  have h := hs x (List.mem_of_find?_eq_some hx)
  have hp := List.find?_some hx
  rw [VariableStore.isVar, Bool.and_eq_true, beq_iff_eq, beq_iff_eq, h.guidStr_eq] at hp
  have hl := congrArg List.length hp.2
  rw [length_guid2str h.vendorGuid_length, lower, List.length_map] at hl
  exact hl.symm

end Lookup

section Adding

variable {store store' : VariableStore} {now : EfiTime} {name vendorGuid : Str} {g : Bytes}
  {attributes : Int} {stamp : Option EfiTime} {content : Bytes} {size : Int}

theorem replaced_found (hs : ∀ v ∈ store.varsList, Held v)
    (ha : Addresses name vendorGuid (str2blob name, g)) {x : VariableTimeBasedAuth}
    (hx : store.varsList.find? (VariableStore.isVar name vendorGuid) = some x) (t : EfiTime) :
    Replaced (str2blob name, g) content size store.varsList
      (store.varsList.modify (store.varsList.findIdx (VariableStore.isVar name vendorGuid))
        (fun var => var.update attributes t content size false)) := by
  have hf := finds ha hs
  have hmem := List.mem_of_find?_eq_some hx
  have hkey : keyOf x = (str2blob name, g) := (hf x hmem).mp (List.find?_some hx)
  have hnew := modify_findIdx_mem (fun var => var.update attributes t content size false) hx
  refine ⟨?_, ?_, ⟨_, hnew, rfl⟩, ?_⟩
  · exact lookup_modify hf hx (fun _ => rfl)
  · have hpadded : paddedSize (x.update attributes t content size false) =
        alignBy4 (HEADER_SIZE + (str2blob name).length + content.length) := by
      have hname : x.nameBlob = str2blob name := congrArg Prod.fst hkey
      rw [← hname]
      rfl
    rw [totalSize_modify _ hx, hpadded, hf.eraseP_eq]
    rfl
  · intro hsize hkept v hv
    rcases mem_modify_findIdx hx hv with hv | rfl
    · have hmem' := List.mem_of_mem_eraseP hv
      exact (hs v hmem').sound (hkept.named v hmem') (hkept.sized v (hf.eraseP_eq ▸ hv))
    · have h := hs x hmem
      exact ⟨h.startId_eq, h.state_eq, hkept.named x hmem, hsize, h.vendorGuid_length, h.decodes⟩

theorem replaced_new (hs : ∀ v ∈ store.varsList, Held v) {v : VariableTimeBasedAuth} {k : Key}
    (hkey : keyOf v = k) (hnew : k ∉ store.varsList.map keyOf)
    (hv : v.dataSize = v.data.length → Sound v) :
    Replaced k v.data v.dataSize store.varsList (store.varsList ++ [v]) := by
  subst hkey
  have herase : store.varsList.eraseP (fun v' => keyOf v' = keyOf v) = store.varsList := by
    apply List.eraseP_of_forall_not
    intro u hu hk
    exact hnew (List.mem_map.mpr ⟨u, hu, by simpa using hk⟩)
  refine ⟨lookup_append_singleton hnew, ?_, ⟨v, by simp, rfl⟩, ?_⟩
  · rw [sizeWith, herase, totalSize, List.map_append, List.sum_append, totalSize]
    rfl
  · intro hsize hkept
    have hold : ∀ u ∈ store.varsList, Sound u := fun u hu =>
      (hs u hu).sound (hkept.named u hu) (hkept.sized u (herase.symm ▸ hu))
    exact (forall_append_singleton hold).mpr (hv hsize)

theorem guid_of_addVariable (hs : ∀ v ∈ store.varsList, Held v)
    (hg : isGuid (some vendorGuid) = true)
    (h : store.addVariable now name vendorGuid attributes stamp content size false = .ok store') :
    ∃ g, str2guid (some vendorGuid) = .ok g := by
  obtain ⟨x, hfind, -⟩ | ⟨-, g, hok, -⟩ := VariableStore.addVariable_cases h
  · obtain ⟨g, hok, -⟩ := str2guid_canonical vendorGuid hg (length_of_found hs hfind)
    exact ⟨g, hok⟩
  · exact ⟨g, hok⟩

/-- `add_variable` without `append` replaces the content of one variable. A
GUID text longer than a GUID finds no variable, so none may be there. -/
theorem addVariable_replaced (hs : ∀ v ∈ store.varsList, Held v) (hn : Ascii name)
    (hg : isGuid (some vendorGuid) = true) (hok : str2guid (some vendorGuid) = .ok g)
    (hk : vendorGuid.length = 36 ∨ (str2blob name, g) ∉ store.varsList.map keyOf)
    (h : store.addVariable now name vendorGuid attributes stamp content size false = .ok store') :
    store' = { store with varsList := store'.varsList } ∧
      Replaced (str2blob name, g) content size store.varsList store'.varsList := by
  have haddr : vendorGuid.length = 36 → Addresses name vendorGuid (str2blob name, g) := by
    intro hl
    obtain ⟨g', hok', ha⟩ := addresses_of_isGuid hn hg hl
    obtain rfl : g = g' := Outcome.ok.inj (hok.symm.trans hok')
    exact ha
  refine ⟨Frame.addVariable_header h, ?_⟩
  obtain ⟨x, hfind, rfl⟩ | ⟨hfind, g', hok', rfl⟩ := VariableStore.addVariable_cases h
  · exact replaced_found hs (haddr (length_of_found hs hfind)) hfind _
  · obtain rfl : g = g' := Outcome.ok.inj (hok.symm.trans hok')
    have hnew : (str2blob name, g) ∉ store.varsList.map keyOf :=
      hk.elim (fun hl => (finds (haddr hl) hs).find?_eq_none hfind) id
    let v := VariableStore.fresh name vendorGuid attributes
      (VariableStore.stampFor now attributes stamp) content size g
    have hsound : v.dataSize = v.data.length → Sound v := fun hsize =>
      ⟨rfl, rfl, rfl, hsize, length_str2guid hok,
        _, decodeUtf8_ascii _ (asciiBytes_str2blob name hn)⟩
    exact replaced_new (v := v) hs rfl hnew hsound

end Adding

end TdxTools.VarEnroll.Replacing
