import TdxTools.VarEnroll.Frame
import TdxTools.VarEnroll.GuidCodec
import TdxTools.VarEnroll.RegionSafety
import TdxTools.VarEnroll.Updating

namespace TdxTools.VarEnroll.Packing

open Python.ByteString Python.Exec Python.Struct Python.Text Python.Files Python.Table
open Guid Variable Variable.VariableTimeBasedAuth Store Codec Enroll Submitting Updating

def AllInFields (store : VariableStore) : Prop := ∀ v ∈ store.varsList, InFields v

/-- The store takes what is submitted, and the variable that it goes to can be
packed then. -/
def Goes (store : VariableStore) (sub : Submission) (append : Bool) : Prop :=
  match store.findVarInList sub.name sub.vendorGuid with
  | some v => Numbers sub.attributes (if append then v.dataSize + sub.size else sub.size)
  | none => (∃ g, str2guid (some sub.vendorGuid) = .ok g) ∧
      (str2blob sub.name).length < 2 ^ 32 ∧ Numbers sub.attributes sub.size

theorem inFields_update {v : VariableTimeBasedAuth} {attributes size : Int} {t : EfiTime}
    {buffer : Bytes} {append : Bool} (h : InFields v) :
    InFields (v.update attributes t buffer size append) ↔
      Numbers attributes (if append then v.dataSize + size else size) := by
  cases append with
  | true =>
    exact ⟨fun hu => hu.numbers, fun hn => ⟨h.startId_lt, h.state_lt, h.rsvd_lt, h.count_lt,
      h.pkIndex_lt, h.nameSize_lt, hn⟩⟩
  | false =>
    exact ⟨fun hu => hu.numbers, fun hn => ⟨h.startId_lt, h.state_lt, h.rsvd_lt, h.count_lt,
      h.pkIndex_lt, h.nameSize_lt, hn⟩⟩

theorem syncBuffer_iff {store : VariableStore} (fd : Bytes) :
    (∃ buffer, store.syncBuffer fd = .ok buffer) ↔ AllInFields store := by
  rw [AllInFields, ← VariableStore.varsBlob_iff]
  constructor
  · rintro ⟨buffer, hbuffer⟩
    obtain ⟨blob, hblob, -⟩ := Frame.syncBuffer_eq_ok hbuffer
    exact ⟨blob, hblob⟩
  · rintro ⟨blob, hblob⟩
    rw [VariableStore.syncBuffer, hblob, Outcome.ok_bind]
    split
    · exact ⟨_, rfl⟩
    · exact ⟨_, rfl⟩

theorem allInFields_of_find {fuel : Nat} {fd : Bytes} {store : VariableStore}
    (h : findVarInfo fuel fd = .ok (some store)) : AllInFields store := by
  obtain ⟨empty, hnil, hsync⟩ := GuidCodec.sync_of_find h
  refine RegionScan.forall_of_sync hsync (by simp [hnil]) ?_
  intro b header name _ hat _ _
  obtain ⟨bin, hbin, -⟩ := RegionSafety.blob_variableAt hat name
  exact blob_iff.mp ⟨bin, hbin⟩

variable {store : VariableStore} {name vendorGuid : Str}

theorem allInFields_delVariable (h : AllInFields store) :
    AllInFields (store.delVariable name vendorGuid).2 := by
  rw [VariableStore.delVariable]
  split
  · exact fun v hv => h v (List.mem_of_mem_eraseP hv)
  · exact h

theorem goes_iff (env : Env) (w : World) {sub : Submission} {append : Bool}
    (h : AllInFields store) :
    (∃ store', sub.into env w append store = .ok store' ∧ AllInFields store') ↔
      Goes store sub append := by
  rw [Goes]
  cases hfind : store.findVarInList sub.name sub.vendorGuid with
  | some v =>
    dsimp only
    have hv := h v (List.mem_of_find?_eq_some hfind)
    have hinto : sub.into env w append store = _ := VariableStore.addVariable_hit hfind
    constructor
    · rintro ⟨store', hinto', hall⟩
      obtain rfl := Outcome.ok.inj (hinto.symm.trans hinto')
      exact (inFields_update hv).mp ((forall_modify_findIdx hfind h _).mp hall)
    · intro hn
      refine ⟨_, hinto, (forall_modify_findIdx hfind h _).mpr ?_⟩
      exact (inFields_update hv).mpr hn
  | none =>
    dsimp only
    constructor
    · rintro ⟨store', hinto, hall⟩
      obtain ⟨v, hv, -⟩ | ⟨-, g, hg, rfl⟩ := VariableStore.addVariable_cases hinto
      · rw [hfind] at hv
        cases hv
      · have hnew := (forall_append_singleton h).mp hall
        exact ⟨⟨g, hg⟩, hnew.nameSize_lt, hnew.numbers⟩
    · rintro ⟨⟨g, hg⟩, hname, hn⟩
      refine ⟨_, VariableStore.addVariable_miss hfind hg, (forall_append_singleton h).mpr ?_⟩
      exact ⟨by norm_num, by norm_num, by norm_num, by norm_num, by norm_num, hname, hn⟩

end TdxTools.VarEnroll.Packing
