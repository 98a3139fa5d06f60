import TdxTools.VarEnroll.Codec

namespace TdxTools.VarEnroll.Frame

open Python.ByteString Python.Exec Python.Struct Python.Text Python.Path Python.Files
open Guid Variable Store Records Codec

theorem search_stops {fd : Bytes} {fuel : Nat} {s s' : SearchState} {volume : FirmwareVolume}
    (h0 : s.offset = 0) (hs : ∀ v, s.volume ≠ some (some v))
    (h : iterate (searchTurn fd) fuel s = (.ok (), s')) (hv : s'.volume = some (some volume)) :
    s'.offset = 0 ∧ FirmwareVolume.init (slice fd 0 128) = some volume := by
  induction fuel generalizing s with
  | zero => cases h
  | succ fuel ih =>
    rw [iterate, searchTurn, h0, Nat.zero_add] at h
    by_cases hlt : 0 < fd.length
    · rw [if_pos hlt] at h
      cases hi : FirmwareVolume.init (slice fd 0 128) with
      | some v =>
        rw [hi] at h
        cases h
        cases hv
        exact ⟨rfl, rfl⟩
      | none =>
        rw [hi] at h
        obtain ⟨-, hi'⟩ := ih rfl (fun v hn => by cases hn) h
        rw [hi'] at hi
        cases hi
    · rw [if_neg hlt] at h
      cases h
      exact absurd hv (hs volume)

/-- An accepted FD has its volume at offset 0 and a store header inside it. -/
theorem findVarInfo_accepted {fd : Bytes} {fuel : Nat} {store : VariableStore}
    (h : findVarInfo fuel fd = .ok (some store)) : ∃ volume store₀,
      FirmwareVolume.init (slice fd 0 128) = some volume ∧
      VariableStore.init volume (slice fd 0 volume.size) 0 = some (store₀, true) ∧
      store₀.syncToVarsList = .ok store := by
  unfold findVarInfo at h
  split at h
  · cases h
  · cases h
  · next s hrun =>
    split at h
    · cases h
    · cases h
    · next volume hv =>
      obtain ⟨h0, hvol⟩ := search_stops rfl (fun v hn => by cases hn) hrun hv
      rw [h0, Nat.zero_add] at h
      split at h
      · cases h
      · next store₀ supported hinit =>
        cases supported with
        | false => cases h
        | true =>
          obtain ⟨store', hsync, hs⟩ := Outcome.bind_eq_ok.mp h
          cases hs
          exact ⟨volume, store₀, hvol, hinit, hsync⟩

theorem syncToVarsList_header {store₀ store : VariableStore}
    (h : store₀.syncToVarsList = .ok store) :
    store.offsetInFd = store₀.offsetInFd ∧ store.size = store₀.size := by
  unfold VariableStore.syncToVarsList at h
  split at h
  · cases h
    exact ⟨rfl, rfl⟩
  · cases h
  · cases h

theorem header_in_fd {fd : Bytes} {fuel : Nat} {store : VariableStore}
    (h : findVarInfo fuel fd = .ok (some store)) :
    store.offsetInFd + VariableStore.headerSize ≤ fd.length := by
  obtain ⟨volume, store₀, -, hinit, hsync⟩ := findVarInfo_accepted h
  obtain ⟨hin, hoff, -⟩ := init_store hinit
  rw [length_slice] at hin
  rw [(syncToVarsList_header hsync).1, hoff]
  omega

/-- One operation on the list of a store. -/
inductive StoreOp
  | add (now : EfiTime) (name vendorGuid : Str) (attributes : Int) (timeStamp : Option EfiTime)
      (buffer : Bytes) (size : Int) (append : Bool)
  | delete (name vendorGuid : Str)

/-- An `add_variable` that raises has not touched the list. -/
def StoreOp.apply (self : VariableStore) : StoreOp → VariableStore
  | add now name vendorGuid attributes timeStamp buffer size append =>
    match self.addVariable now name vendorGuid attributes timeStamp buffer size append with
    | .ok self' => self'
    | _ => self
  | delete name vendorGuid => (self.delVariable name vendorGuid).2

def applyAll (self : VariableStore) (ops : List StoreOp) : VariableStore :=
  ops.foldl StoreOp.apply self

theorem addVariable_header {now : EfiTime} {self self' : VariableStore} {name vendorGuid : Str}
    {attributes : Int} {timeStamp : Option EfiTime} {buffer : Bytes} {size : Int} {append : Bool}
    (h : self.addVariable now name vendorGuid attributes timeStamp buffer size append = .ok self') :
    self' = { self with varsList := self'.varsList } := by
  obtain ⟨x, -, rfl⟩ | ⟨-, guid, -, rfl⟩ := VariableStore.addVariable_cases h
  · rfl
  · rfl

theorem delVariable_header (self : VariableStore) (name vendorGuid : Str) :
    (self.delVariable name vendorGuid).2 =
      { self with varsList := (self.delVariable name vendorGuid).2.varsList } := by
  unfold VariableStore.delVariable
  split <;> rfl

theorem StoreOp.apply_header (self : VariableStore) (op : StoreOp) :
    op.apply self = { self with varsList := (op.apply self).varsList } := by
  cases op with
  | add now name vendorGuid attributes timeStamp buffer size append =>
    rw [StoreOp.apply]
    cases hadd : self.addVariable now name vendorGuid attributes timeStamp buffer size append with
    | ok self' => exact addVariable_header hadd
    | raised e => rfl
    | running => rfl
  | delete name vendorGuid => exact delVariable_header self name vendorGuid

theorem applyAll_header (self : VariableStore) (ops : List StoreOp) :
    applyAll self ops = { self with varsList := (applyAll self ops).varsList } := by
  induction ops generalizing self with
  | nil => rfl
  | cons op ops ih =>
    rw [applyAll, List.foldl_cons, ← applyAll, ih, op.apply_header self]

theorem varsBlob_length {vars : List VariableTimeBasedAuth} {blob : Bytes}
    (h : VariableStore.varsBlob vars = .ok blob) : blob.length = totalSize vars := by
  induction vars generalizing blob with
  | nil =>
    cases h
    rfl
  | cons v vars ih =>
    obtain ⟨vbin, hv, h⟩ := Outcome.bind_eq_ok.mp h
    obtain ⟨rest, hrest, h⟩ := Outcome.bind_eq_ok.mp h
    cases h
    have hle := le_alignBy4 vbin.length
    have hl := VariableTimeBasedAuth.blob_length hv
    rw [List.length_append, List.length_append, List.length_replicate, ih hrest, totalSize, totalSize,
      List.map_cons, List.sum_cons, paddedSize, ← hl]
    omega

theorem syncBuffer_eq_ok {self : VariableStore} {fd buffer : Bytes}
    (h : self.syncBuffer fd = .ok buffer) : ∃ blob, VariableStore.varsBlob self.varsList = .ok blob ∧
      buffer = setSlice (setSlice fd (self.offsetInFd + VariableStore.headerSize)
        (self.offsetInFd + self.size) (List.replicate (self.size - VariableStore.headerSize) 0xff))
        (self.offsetInFd + VariableStore.headerSize)
        (self.offsetInFd + VariableStore.headerSize + blob.length) blob := by
  obtain ⟨blob, hblob, h⟩ := Outcome.bind_eq_ok.mp h
  refine ⟨blob, hblob, ?_⟩
  by_cases h0 : blob.length > 0
  · rw [if_pos h0] at h
    cases h
    rfl
  · rw [if_neg h0] at h
    cases h
    have hnil : blob = [] := List.length_eq_zero_iff.mp (by omega)
    rw [hnil, List.length_nil, Nat.add_zero, setSlice_nil]

theorem syncToFile_eq_ok {env : Env} {self : VariableStore} {fd : Bytes} {out : Str} {w w' : World}
    (h : self.syncToFile env fd out w = (.ok true, w')) :
    ∃ buffer, self.syncBuffer fd = .ok buffer ∧ writeFile env out buffer w = (.ok (), w') := by
  obtain ⟨buffer, w₁, hb, h⟩ := Py.bind_eq_ok.mp h
  obtain ⟨hbuffer, rfl⟩ := Py.lift_eq_ok.mp hb
  refine ⟨buffer, hbuffer, ?_⟩
  rcases Py.tryExcept_eq_ok.mp h with h | ⟨e, w₂, -, h⟩
  · obtain ⟨u, w₂, hw, h⟩ := Py.bind_eq_ok.mp h
    cases h
    exact hw
  · cases h

section Write

variable {fd fd' : Bytes} {store : VariableStore}

/-- The written file is the FD with the region replaced when the list fits and
the region lies in the file. -/
theorem syncBuffer_fits (hin : store.offsetInFd + store.size ≤ fd.length)
    (hfit : (totalSize store.varsList : Int) ≤ store.size - VariableStore.headerSize)
    (h : store.syncBuffer fd = .ok fd') : ∃ region,
      store.offsetInFd + VariableStore.headerSize + region.length = store.offsetInFd + store.size ∧
      fd' = setSlice fd (store.offsetInFd + VariableStore.headerSize)
        (store.offsetInFd + store.size) region := by
  obtain ⟨blob, hblob, rfl⟩ := syncBuffer_eq_ok h
  have hl := varsBlob_length hblob
  have hroom : store.offsetInFd + VariableStore.headerSize +
      (store.size - VariableStore.headerSize) = store.offsetInFd + store.size := by omega
  refine ⟨_, ?_, setSlice_fill fd blob 0xff _ _ _ hin hroom (by omega)⟩
  rw [List.length_append, List.length_replicate]
  omega

/-- A region that reaches past the end of the file makes the file longer. -/
theorem syncBuffer_grows (hheader : store.offsetInFd + VariableStore.headerSize ≤ fd.length)
    (hout : fd.length < store.offsetInFd + store.size)
    (h : store.syncBuffer fd = .ok fd') : fd.length < fd'.length := by
  obtain ⟨blob, -, rfl⟩ := syncBuffer_eq_ok h
  have hclear := length_setSlice_eq fd (store.offsetInFd + VariableStore.headerSize)
    (store.offsetInFd + store.size)
    (List.replicate (store.size - VariableStore.headerSize) 0xff) hheader
  rw [List.length_replicate] at hclear
  rw [length_setSlice_eq _ _ _ _ (by omega), hclear]
  omega

end Write

/-- After any operations on the store of an accepted FD, a successful write
keeps the length of the FD and every byte outside the variable region, and the
list was not too long, exactly when the list fits the region and the region
lies in the file. -/
theorem sync_to_file_frame {fd : Bytes} {fuel : Nat} {store : VariableStore}
    (hfind : findVarInfo fuel fd = .ok (some store)) (ops : List StoreOp) {env : Env} {out : Str}
    {w w' : World} {fd' : Bytes}
    (hsync : (applyAll store ops).syncToFile env fd out w = (.ok true, w'))
    (hfd' : w'.content env out = some fd') :
    (fd'.length = fd.length ∧
      (∀ k, k < store.offsetInFd + VariableStore.headerSize ∨ store.offsetInFd + store.size ≤ k →
        fd'[k]? = fd[k]?) ∧
      (totalSize (applyAll store ops).varsList : Int) ≤ store.size - VariableStore.headerSize) ↔
    (totalSize (applyAll store ops).varsList : Int) ≤ store.size - VariableStore.headerSize ∧
      store.offsetInFd + store.size ≤ fd.length := by
  obtain ⟨buffer, hbuffer, hwrite⟩ := syncToFile_eq_ok hsync
  obtain ⟨hout, -, rfl⟩ := writeFile_eq_ok hwrite
  rw [World.content_put_self env w out hout, Option.some.injEq] at hfd'
  subst hfd'
  have hheader := header_in_fd hfind
  have hoff : (applyAll store ops).offsetInFd = store.offsetInFd := by rw [applyAll_header store ops]
  have hsize : (applyAll store ops).size = store.size := by rw [applyAll_header store ops]
  constructor
  · rintro ⟨hlen, -, hfit⟩
    refine ⟨hfit, ?_⟩
    by_contra hlt
    have hgrow := syncBuffer_grows (by rw [hoff]; exact hheader) (by rw [hoff, hsize]; omega) hbuffer
    omega
  · rintro ⟨hfit, hin⟩
    obtain ⟨region, hregion, rfl⟩ := syncBuffer_fits (by rw [hoff, hsize]; exact hin)
      (by rw [hsize]; exact hfit) hbuffer
    rw [hoff, hsize] at hregion ⊢
    exact ⟨length_setSlice fd _ _ _ hin hregion,
      fun k hk => setSlice_frame fd _ _ _ hin hregion k hk, hfit⟩

def addSample : StoreOp :=
  .add .zero ['V'] VariableStore.efiAuthenticatedVariableBasedTimeGuid 7 none [1, 2, 3] 3 false

theorem sync_to_file_frame_blank : ∃ fd' : Bytes, fd'.length = (blankImage 68).length ∧
    ∀ k, k < 84 ∨ 152 ≤ k → fd'[k]? = (blankImage 68)[k]? := by
  have hfind : findVarInfo 1 (blankImage 68) = .ok (some (blankStore 68)) := by decide +kernel
  have hbuffer : ((applyAll (blankStore 68) [addSample]).syncBuffer (blankImage 68)).value.isSome := by
    decide +kernel
  obtain ⟨fd', hfd'⟩ := Option.isSome_iff_exists.mp hbuffer
  have hsync : (applyAll (blankStore 68) [addSample]).syncToFile .reliable (blankImage 68) ['o']
      .empty = _ := syncToFile_ok (Outcome.value_eq_some.mp hfd') (by decide) rfl
  have h := sync_to_file_frame hfind [addSample] hsync
    (World.content_put_self .reliable _ _ (by decide) _)
  obtain ⟨hlen, hsame, -⟩ := h.mpr ⟨by decide +kernel, by decide +kernel⟩
  exact ⟨fd', hlen, hsame⟩

/-- With no room for records the new variable is written over what follows the
store, and the file becomes longer. -/
theorem sync_to_file_overflow : ∃ store fd' w',
    findVarInfo 1 (blankImage 0 ++ [0, 0, 0, 0]) = .ok (some store) ∧
    (applyAll store [addSample]).syncToFile .reliable (blankImage 0 ++ [0, 0, 0, 0]) ['o'] .empty =
      (.ok true, w') ∧
    w'.content .reliable ['o'] = some fd' ∧
    store.offsetInFd + store.size = 84 ∧ fd'.length ≠ (blankImage 0 ++ [0, 0, 0, 0]).length ∧
    fd'[84]? ≠ (blankImage 0 ++ [0, 0, 0, 0])[84]? := by
  have hbuffer : ((applyAll (blankStore 0) [addSample]).syncBuffer
      (blankImage 0 ++ [0, 0, 0, 0])).value.any (fun fd' : Bytes =>
        fd'.length ≠ (blankImage 0 ++ [0, 0, 0, 0]).length ∧
          fd'[84]? ≠ (blankImage 0 ++ [0, 0, 0, 0])[84]?) := by decide +kernel
  obtain ⟨fd', hfd', hne⟩ := (Option.any_eq_true _ _).mp hbuffer
  obtain ⟨hlen, hbyte⟩ := of_decide_eq_true hne
  exact ⟨blankStore 0, fd', _, by decide +kernel,
    syncToFile_ok (Outcome.value_eq_some.mp hfd') (by decide) rfl,
    World.content_put_self .reliable _ _ (by decide) _, rfl, hlen, hbyte⟩

end TdxTools.VarEnroll.Frame
