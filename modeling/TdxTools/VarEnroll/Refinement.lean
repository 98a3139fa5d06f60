import TdxTools.VarEnroll.Frame
import TdxTools.VarEnroll.Operations

namespace TdxTools.VarEnroll.Refinement

open Python.ByteString Python.Exec Python.Text Python.Path Python.Files Python.Table
open Variable Store Records Codec VarEnroll.Frame Enroll VariableMap Operations

/-- The image holds aligned records, and its live variables, no two of them
under one key, make up the map. -/
def Represents (fd : Bytes) (m : Variables) : Prop :=
  ∃ volume store rs, WellFormedImage fd volume store ∧ RegionHolds fd volume store rs ∧
    ((liveVars rs).map keyOf).Nodup ∧ mapOf (liveVars rs) = m

variable {env : Env} {args : Args} {fuel : Nat}

section Flow

variable {w w' : World} {fd : Bytes} {store : VariableStore} {s s' : Session}

theorem readInput_ok (hread : env.readFails w.clock = false)
    (hfd : w.content env args.input = some fd) :
    Py.tryExcept (do let b ← readFile env args.input; pure (some b)) (fun _ => pure none) w =
      (.ok (some fd), w.tick) := by
  apply Py.tryExcept_ok
  have h : readFile env args.input w = (.ok fd, w.tick) := by
    rw [readFile, if_neg (by simp [hread]), hfd]
  rw [Py.bind_ok h]
  rfl

theorem varEnroll_unread (hread : env.readFails w.clock = true) :
    varEnroll env fuel args w = (.ok false, w.tick) := by
  have h : readFile env args.input w = (.raised .osError, w.tick) := by
    rw [readFile, if_pos hread]
  have htry : Py.tryExcept (do let b ← readFile env args.input; pure (some b))
      (fun _ => pure none) w = (.ok none, w.tick) := by
    rw [Py.tryExcept_raised (Py.bind_raised h)]
    rfl
  rw [varEnroll, Py.bind_ok htry]
  rfl

section Read

variable (hread : env.readFails w.clock = false) (hfd : w.content env args.input = some fd)
  (hfind : findVarInfo fuel fd = .ok (some store)) (hinfo : args.info = false)

include hread hfd hfind hinfo

theorem varEnroll_read : varEnroll env fuel args w = (do
    let checked ← .tryExcept (checkArgs env args) (fun _ => pure false)
    if checked then
      .tryExcept (do let _ ← withStore store (processVar env args fd); pure true)
        (fun _ => pure false)
    else pure false : Py World Bool) w.tick := by
  rw [varEnroll, Py.bind_ok (readInput_ok hread hfd)]
  dsimp only
  rw [hfind, Py.lift_ok_bind_apply]
  dsimp only
  rw [hinfo]
  rfl

theorem varEnroll_unchecked (hp : ¬ Passes env w.tick args) :
    varEnroll env fuel args w = (.ok false, w.tick) := by
  obtain ⟨e, he⟩ := checkArgs_refuses hp
  rw [varEnroll_read hread hfd hfind hinfo, Py.bind_ok (Py.tryExcept_raised he)]
  rfl

variable (hp : Passes env w.tick args)

include hp

theorem varEnroll_raised {e : Exn}
    (hx : processVar env args fd { world := w.tick, store } = (.raised e, s')) :
    varEnroll env fuel args w = (.ok false, s'.world) := by
  have hstore : withStore store (processVar env args fd) w.tick = (.raised e, s'.world) := by
    rw [withStore, hx]
  rw [varEnroll_read hread hfd hfind hinfo,
    Py.bind_ok (Py.tryExcept_ok (checkArgs_passes hp)), if_pos rfl,
    Py.tryExcept_raised (Py.bind_raised hstore)]
  rfl

theorem varEnroll_done {b : Bool}
    (hx : processVar env args fd { world := w.tick, store } = (.ok b, s')) :
    varEnroll env fuel args w = (.ok true, s'.world) := by
  have hstore : withStore store (processVar env args fd) w.tick = (.ok b, s'.world) := by
    rw [withStore, hx]
  rw [varEnroll_read hread hfd hfind hinfo,
    Py.bind_ok (Py.tryExcept_ok (checkArgs_passes hp)), if_pos rfl]
  apply Py.tryExcept_ok
  rw [Py.bind_ok hstore]
  rfl

end Read

theorem processVar_raised {e : Exn} (h : operate env args s = (.raised e, s')) :
    processVar env args fd s = (.raised e, s') := by
  rw [processVar, Py.bind_raised h]

theorem processVar_false (h : operate env args s = (.ok false, s')) :
    processVar env args fd s = (.ok false, s') := by
  rw [processVar, Py.bind_ok h]
  rfl

theorem processVar_true {path : Str} (hout : args.output = some path)
    (h : operate env args s = (.ok true, s')) :
    processVar env args fd s =
      ((s'.store.syncToFile env fd path s'.world).1,
        { s' with world := (s'.store.syncToFile env fd path s'.world).2 }) := by
  rw [processVar, Py.bind_ok h, if_pos rfl, Py.get_bind_apply, hout]
  rfl

theorem blob_ne_running (v : VariableTimeBasedAuth) : v.blob ≠ .running := by
  have hu : ∀ n, VariableTimeBasedAuth.unsigned n ≠ .running := by
    intro n
    rw [VariableTimeBasedAuth.unsigned]
    split <;> simp
  apply Outcome.bind_ne_running (hu _)
  intro a
  apply Outcome.bind_ne_running (hu _)
  intro d
  exact Outcome.bind_ne_running (Outcome.ofOption_ne_running _ _) (fun _ => by simp)

theorem varsBlob_ne_running (vars : List VariableTimeBasedAuth) :
    VariableStore.varsBlob vars ≠ .running := by
  induction vars with
  | nil => simp [VariableStore.varsBlob]
  | cons v vars ih =>
    apply Outcome.bind_ne_running (blob_ne_running v)
    intro vbin
    exact Outcome.bind_ne_running ih (fun _ => by simp)

end Flow

section Sync

variable {w : World} {fd : Bytes} {volume : FirmwareVolume} {store : VariableStore} {path : Str}
  {vars : List VariableTimeBasedAuth} {varsSize : Nat}

/-- A list that can be written is on file afterwards, as the map it stands for. -/
theorem sync_writable (h : WellFormedImage fd volume store) (hw : ∀ v ∈ vars, Writable v)
    (hd : (vars.map keyOf).Nodup) (hpath : Names path) (hfault : env.writeFault w.clock = .none)
    (hfits : ∀ blob, VariableStore.varsBlob vars = .ok blob →
      blob.length ≤ store.size - VariableStore.headerSize) :
    ∃ fd', VariableStore.syncToFile env { store with varsList := vars, varsSize } fd path w =
        (.ok true, w.put (resolve env.cwd path) fd') ∧ Represents fd' (mapOf vars) := by
  obtain ⟨blobs, hblobs, -, hlen⟩ := varsBlob_writable vars hw
  have hfit : totalSize vars ≤ store.size - VariableStore.headerSize := hlen ▸ hfits _ hblobs
  obtain ⟨fd', rs, hbuffer, -, himage, hr, hvars⟩ := syncBuffer_writable h vars varsSize hw hfit
  refine ⟨fd', syncToFile_ok hbuffer hpath hfault, volume, _, rs, himage, hr, ?_, ?_⟩
  · rw [hvars, map_keyOf_reread]
    exact hd
  · rw [hvars, mapOf_reread]

/-- A list with an entry that its header cannot hold is never written. -/
theorem sync_unwritable {self : VariableStore} (hs : ∀ v ∈ self.varsList, Shaped v)
    {v : VariableTimeBasedAuth} (hv : v ∈ self.varsList) (hw : ¬ Writable v) :
    ∃ e, self.syncToFile env fd path w = (.raised e, w) := by
  cases hb : VariableStore.varsBlob self.varsList with
  | ok blob => exact absurd (writable_of_varsBlob hs hb v hv) hw
  | running => exact absurd hb (varsBlob_ne_running _)
  | raised e =>
    refine ⟨e, ?_⟩
    rw [VariableStore.syncToFile, VariableStore.syncBuffer, hb]
    rfl

end Sync

/-- The list that a run is about to write has room in the store. -/
def ListFits (env : Env) (fuel : Nat) (w : World) (args : Args) : Prop :=
  ∀ fd store s blob, w.content env args.input = some fd → findVarInfo fuel fd = .ok (some store) →
    operate env args { world := w.tick, store } = (.ok true, s) →
    VariableStore.varsBlob s.store.varsList = .ok blob →
    blob.length ≤ store.size - VariableStore.headerSize

section Fitting

variable {env : Env} {fuel : Nat} {w : World} {args : Args}

/-- The test of `ListFits`. -/
def listFits (env : Env) (fuel : Nat) (w : World) (args : Args) : Bool :=
  match w.content env args.input with
  | none => true
  | some fd =>
    match findVarInfo fuel fd with
    | .ok (some store) =>
      match operate env args { world := w.tick, store } with
      | (.ok true, s) =>
        match VariableStore.varsBlob s.store.varsList with
        | .ok blob => decide (blob.length ≤ store.size - VariableStore.headerSize)
        | _ => true
      | _ => true
    | _ => true

theorem listFits_sound (h : listFits env fuel w args = true) : ListFits env fuel w args := by
  intro fd store s blob hfd hfind hop hblob
  simp only [listFits, hfd, hfind, hop, hblob, decide_eq_true_eq] at h
  exact h

theorem dbxFileWhole_of_ne {name : Str} (hn : args.name = some name)
    (h : lower name ≠ "dbx".toList) : DbxFileWhole env w args := by
  intro name' hn' hdbx
  obtain rfl := Option.some.inj (hn.symm.trans hn')
  exact absurd hdbx h

end Fitting

section Step

variable {w : World} {fd : Bytes} {m : Variables} {path : Str}

section Ready

variable {volume : FirmwareVolume} {store : VariableStore} {rs : List StoredRecord} {k : Key}

/-- The store as it is read from the image. -/
abbrev readStore (store : VariableStore) (rs : List StoredRecord) : VariableStore :=
  { store with varsList := liveVars rs, varsSize := (encodeAll rs).length }

variable (hwrite : ∀ c, env.writeFault c = .none) (hfd : w.content env path = some fd)
  (himage : WellFormedImage fd volume store) (hr : RegionHolds fd volume store rs)
  (hd : ((liveVars rs).map keyOf).Nodup) (hi : InPlace path args)
  (hread : env.readFails w.clock = false) (hp : Passes env w.tick args) (n : Nat)
  (hfits : ListFits env (n + 1) w args)

include hwrite hfd himage hr hd hi hread hp hfits

theorem step_write {value : Value}
    (hfollow : WritesValue env (operate env args) { world := w.tick, store := readStore store rs } k
      value) : ∃ o w' fd',
      varEnroll env (n + 1) args w = (.ok o, w') ∧ w'.content env path = some fd' ∧
        Represents fd' (Edit.apply (mapOf (liveVars rs)) (.write k value)) ∧ (o = false → fd' = fd) := by
  have hinput : w.content env args.input = some fd := hi.input_eq ▸ hfd
  have hfind := findVarInfo_region himage hr n
  have hpath := World.names_of_content hfd
  obtain ⟨name, vendorGuid, stamp, ha, htime, hop⟩ := hfollow
  obtain ⟨vars', hadd, hwritten⟩ := addVariable_written (.now (env.gmtime w.tick.tick.clock))
    (readStore store rs) ha (shaped_liveVars rs) hd value.attributes stamp value.data value.append
  rw [← htime] at hwritten
  have hdone : operate env args { world := w.tick, store := readStore store rs } =
      (.ok true, { world := w.tick.tick, store := { readStore store rs with varsList := vars' } }) := by
    rw [hop, addToStore, hadd]
  have hsync : processVar env args fd { world := w.tick, store := readStore store rs } = _ :=
    processVar_true hi.output_eq hdone
  by_cases hstore : Storable k (value.over (mapOf (liveVars rs) k))
  · have hw : ∀ v ∈ vars', Writable v := by
      intro v hv
      apply (hwritten.old_or_new v hv).elim (writable_liveVars rs v)
      rintro ⟨hk, he⟩
      rw [(hwritten.shaped v hv).writable_iff, hk, he]
      exact hstore
    obtain ⟨fd', hwrote, hrep⟩ := sync_writable himage hw hwritten.nodup hpath
      (hwrite w.tick.tick.clock) (fun blob hb => hfits fd (readStore store rs) _ blob hinput hfind hdone hb)
    rw [hwrote] at hsync
    refine ⟨true, _, fd', varEnroll_done hread hinput hfind hi.info_eq hp hsync,
      World.content_put_self env _ path hpath fd', ?_, by simp⟩
    rw [Edit.apply, if_pos hstore, ← hwritten.map_eq]
    exact hrep
  · obtain ⟨v, hv, hk, he⟩ := hwritten.has_new
    have hw : ¬ Writable v := by
      rw [(hwritten.shaped v hv).writable_iff, hk, he]
      exact hstore
    obtain ⟨e, hraise⟩ : ∃ e, VariableStore.syncToFile env { readStore store rs with varsList := vars' }
        fd path w.tick.tick = (.raised e, w.tick.tick) := sync_unwritable hwritten.shaped hv hw
    rw [hraise] at hsync
    refine ⟨false, _, fd, varEnroll_raised hread hinput hfind hi.info_eq hp hsync, hfd, ?_,
      fun _ => rfl⟩
    rw [Edit.apply, if_neg hstore]
    exact ⟨volume, store, rs, himage, hr, hd, rfl⟩

theorem step_erase {name vendorGuid : Str} (ha : Addresses name vendorGuid k)
    (hop : operate env args { world := w.tick, store := readStore store rs } =
      delVariable name vendorGuid { world := w.tick, store := readStore store rs }) : ∃ o w' fd',
      varEnroll env (n + 1) args w = (.ok o, w') ∧ w'.content env path = some fd' ∧
        Represents fd' (Edit.apply (mapOf (liveVars rs)) (.erase k)) ∧ (o = false → fd' = fd) := by
  have hinput : w.content env args.input = some fd := hi.input_eq ▸ hfd
  have hfind := findVarInfo_region himage hr n
  have hpath := World.names_of_content hfd
  obtain ⟨hmap, hmiss, hsub⟩ := delVariable_erased (readStore store rs) ha (shaped_liveVars rs) hd
  have hheader := delVariable_header (readStore store rs) name vendorGuid
  rw [Edit.apply]
  cases hret : ((readStore store rs).delVariable name vendorGuid).1 with
  | false =>
    have hdone : operate env args { world := w.tick, store := readStore store rs } =
        (.ok false, { world := w.tick, store := readStore store rs }) := by
      rw [hop, delVariable_apply, hret, hmiss hret]
    rw [hmiss hret] at hmap
    refine ⟨true, _, fd, varEnroll_done hread hinput hfind hi.info_eq hp (processVar_false hdone),
      hfd, ?_, by simp⟩
    rw [← hmap]
    exact ⟨volume, store, rs, himage, hr, hd, rfl⟩
  | true =>
    have hdone : operate env args { world := w.tick, store := readStore store rs } =
        (.ok true, { world := w.tick, store := { readStore store rs with
          varsList := ((readStore store rs).delVariable name vendorGuid).2.varsList } }) := by
      rw [hop, delVariable_apply, hret, ← hheader]
    have hsync : processVar env args fd { world := w.tick, store := readStore store rs } = _ :=
      processVar_true hi.output_eq hdone
    obtain ⟨fd', hwrote, hrep⟩ := sync_writable himage
      (fun v hv => writable_liveVars rs v (hsub.subset hv)) ((hsub.map keyOf).nodup hd) hpath
      (hwrite w.tick.clock) (fun blob hb => hfits fd (readStore store rs) _ blob hinput hfind hdone hb)
    rw [hwrote] at hsync
    refine ⟨true, _, fd', varEnroll_done hread hinput hfind hi.info_eq hp hsync,
      World.content_put_self env _ path hpath fd', ?_, by simp⟩
    rw [← hmap]
    exact hrep

end Ready

/-- One run turns the image of a map into the image of the edited map. A run
that is refused leaves the file as it was. -/
theorem varEnroll_step (hwrite : ∀ c, env.writeFault c = .none) (hfd : w.content env path = some fd)
    (hm : Represents fd m) (hi : InPlace path args) (hdbx : DbxFileWhole env w args) (n : Nat)
    (hfits : ListFits env (n + 1) w args) : ∃ o w' fd',
      varEnroll env (n + 1) args w = (.ok o, w') ∧ w'.content env path = some fd' ∧
        Represents fd' (applyOption m (editOf env w args)) ∧ (o = false → fd' = fd) := by
  obtain ⟨volume, store, rs, himage, hr, hd, rfl⟩ := id hm
  have hinput : w.content env args.input = some fd := hi.input_eq ▸ hfd
  have hfind := findVarInfo_region himage hr n
  cases hread : env.readFails w.clock with
  | true =>
    have hedit : editOf env w args = none := if_pos hread
    rw [hedit]
    exact ⟨false, _, fd, varEnroll_unread hread, hfd, hm, fun _ => rfl⟩
  | false =>
    by_cases hp : Passes env w.tick args
    · have hfollow : Follows env (operate env args) { world := w.tick, store := readStore store rs }
          (editOf env w args) := follows_operate hi hp hread hdbx
      cases hedit : editOf env w args with
      | none =>
        rw [hedit] at hfollow
        obtain ⟨e, s', hop, hfiles⟩ := hfollow
        exact ⟨false, s'.world, fd,
          varEnroll_raised hread hinput hfind hi.info_eq hp (processVar_raised hop),
          (World.content_congr hfiles path).trans hfd, hm, fun _ => rfl⟩
      | some edit =>
        rw [hedit] at hfollow
        cases edit with
        | write k value => exact step_write hwrite hfd himage hr hd hi hread hp n hfits hfollow
        | erase k =>
          obtain ⟨name, vendorGuid, ha, hop⟩ := hfollow
          exact step_erase hwrite hfd himage hr hd hi hread hp n hfits ha hop
    · rw [editOf_refused hi.operation_mem hp]
      exact ⟨false, _, fd, varEnroll_unchecked hread hinput hfind hi.info_eq hp, hfd, hm, fun _ => rfl⟩

end Step

/-- Every run of a sequence finds its list in bounds and its dbx file whole. -/
def RunsFit (env : Env) (fuel : Nat) : List Args → World → Prop
  | [], _ => True
  | args :: runs, w => ListFits env fuel w args ∧ DbxFileWhole env w args ∧
      RunsFit env fuel runs (varEnroll env fuel args w).2

def runAll (env : Env) (fuel : Nat) : List Args → World → World
  | [], w => w
  | args :: runs, w => runAll env fuel runs (varEnroll env fuel args w).2

theorem runAll_represents {path : Str} (hwrite : ∀ c, env.writeFault c = .none) (n : Nat)
    (runs : List Args) (hi : ∀ args ∈ runs, InPlace path args) (w : World) (fd : Bytes)
    (m : Variables) (hfd : w.content env path = some fd) (hm : Represents fd m)
    (hfits : RunsFit env (n + 1) runs w) : ∃ fd',
      (runAll env (n + 1) runs w).content env path = some fd' ∧
        Represents fd' (mapAfter env (n + 1) runs w m) := by
  induction runs generalizing w fd m with
  | nil => exact ⟨fd, hfd, hm⟩
  | cons args runs ih =>
    obtain ⟨hlist, hdbx, hrest⟩ := hfits
    obtain ⟨o, w', fd', hrun, hfd', hm', -⟩ :=
      varEnroll_step hwrite hfd hm (hi args (by simp)) hdbx n hlist
    rw [hrun] at hrest
    rw [runAll, mapAfter, hrun]
    exact ih (fun a ha => hi a (by simp [ha])) w' fd' _ hfd' hm' hrest

theorem findVarInfo_represents {fd : Bytes} {m : Variables} (hm : Represents fd m) (n : Nat) :
    ∃ store, findVarInfo (n + 1) fd = .ok (some store) ∧ mapOf store.varsList = m := by
  obtain ⟨volume, store, rs, himage, hr, -, rfl⟩ := hm
  exact ⟨_, findVarInfo_region himage hr n, rfl⟩

theorem RunsFit.of_append {pre post : List Args} {w : World} (h : RunsFit env fuel (pre ++ post) w) :
    RunsFit env fuel pre w ∧ RunsFit env fuel post (runAll env fuel pre w) := by
  induction pre generalizing w with
  | nil => exact ⟨trivial, h⟩
  | cons args pre ih =>
    obtain ⟨hlist, hdbx, hrest⟩ := h
    obtain ⟨hpre, hpost⟩ := ih hrest
    exact ⟨⟨hlist, hdbx, hpre⟩, hpost⟩

/-- The tool refines a map: after any sequence of in-place runs the FD reads as
the map that the edits of the runs make of the first one. An edit leaves the
other keys alone, and a run that fails leaves the FD as it was. -/
theorem enroll_refines_map {path : Str} (hwrite : ∀ c, env.writeFault c = .none) (n : Nat)
    (runs : List Args) (hi : ∀ args ∈ runs, InPlace path args) {w : World} {fd : Bytes}
    {m : Variables} (hfd : w.content env path = some fd) (hm : Represents fd m)
    (hfits : RunsFit env (n + 1) runs w) :
    (∃ fd' store, (runAll env (n + 1) runs w).content env path = some fd' ∧
      findVarInfo (n + 1) fd' = .ok (some store) ∧
      mapOf store.varsList = mapAfter env (n + 1) runs w m) ∧
    (∀ (edit : Edit) (m : Variables) k, k ≠ edit.key → edit.apply m k = m k) ∧
    (∀ pre args post, runs = pre ++ args :: post →
      ∃ o w', varEnroll env (n + 1) args (runAll env (n + 1) pre w) = (.ok o, w') ∧
        (o = false → w'.content env path = (runAll env (n + 1) pre w).content env path)) := by
  refine ⟨?_, fun edit m k hk => edit.apply_of_ne m k hk, ?_⟩
  · obtain ⟨fd', hfd', hm'⟩ := runAll_represents hwrite n runs hi w fd m hfd hm hfits
    obtain ⟨store, hfind, hmap⟩ := findVarInfo_represents hm' n
    exact ⟨fd', store, hfd', hfind, hmap⟩
  · intro pre args post hruns
    subst hruns
    obtain ⟨hpre, hlist, hdbx, -⟩ := hfits.of_append
    obtain ⟨fd₁, hfd₁, hm₁⟩ := runAll_represents hwrite n pre
      (fun a ha => hi a (List.mem_append_left _ ha)) w fd m hfd hm hpre
    obtain ⟨o, w', fd', hrun, hfd', -, hsame⟩ :=
      varEnroll_step hwrite hfd₁ hm₁ (hi args (by simp)) hdbx n hlist
    exact ⟨o, w', hrun, fun ho => by rw [hfd', hsame ho, hfd₁]⟩

def sampleWorld : World :=
  { files := fun place =>
      if place = [['o']] then some { content := blankImage 68, ctime := 0 }
      else if place = [['d']] then some { content := [1, 2, 3], ctime := 0 }
      else none
    clock := 0 }

def sampleArgs : Args :=
  { input := ['o'], operation := some .ADD, name := some ['V']
    guid := some VariableStore.efiAuthenticatedVariableBasedTimeGuid
    attributes := some ['7'], dataFile := some ['d'], output := some ['o'] }

theorem sampleArgs_inPlace : InPlace ['o'] sampleArgs :=
  ⟨rfl, rfl, rfl, Or.inl rfl, fun name hn => by cases hn; decide, fun guid hg => by cases hg; rfl⟩

/-- The FD that holds the two variables. -/
def storedImage : Bytes :=
  (VariableStore.syncBuffer { blankStore 216 with varsList := sampleVariables, varsSize := 0 }
    (blankImage 216)).value.getD []

theorem represents_storedImage : Represents storedImage (mapOf sampleVariables) := by
  obtain ⟨fd', rs, hbuffer, -, himage, hr, hvars⟩ := syncBuffer_writable roomyImage_wellFormed
    sampleVariables 0 writable_sampleVariables (by decide)
  have hfd : storedImage = fd' := by
    rw [storedImage, hbuffer]
    rfl
  rw [hfd]
  refine ⟨_, _, rs, himage, hr, ?_, ?_⟩
  · rw [hvars, map_keyOf_reread]
    decide +kernel
  · rw [hvars, mapOf_reread]

def storedWorld : World :=
  { files := fun place =>
      if place = [['o']] then some { content := storedImage, ctime := 0 }
      else if place = [['d']] then some { content := [1, 2, 3], ctime := 0 }
      else none
    clock := 0 }

/-- One variable is added, one is appended to, and one is deleted. -/
def sampleRuns : List Args :=
  [{ sampleArgs with name := some ['W'] }, { sampleArgs with operation := some .APPEND },
    { sampleArgs with operation := some .DEL, name := some ['U'] }]

theorem sampleRuns_inPlace : ∀ args ∈ sampleRuns, InPlace ['o'] args := by
  rw [sampleRuns, List.forall_mem_cons, List.forall_mem_cons, List.forall_mem_singleton]
  exact ⟨⟨rfl, rfl, rfl, Or.inl rfl, fun name hn => by cases hn; decide, sampleArgs_inPlace.guid_length⟩,
    ⟨rfl, rfl, rfl, Or.inr (Or.inl rfl), sampleArgs_inPlace.name_ascii, sampleArgs_inPlace.guid_length⟩,
    ⟨rfl, rfl, rfl, Or.inr (Or.inr rfl), fun name hn => by cases hn; decide,
      sampleArgs_inPlace.guid_length⟩⟩

theorem sampleRuns_fit : RunsFit .reliable 1 sampleRuns storedWorld :=
  ⟨listFits_sound (by decide +kernel), dbxFileWhole_of_ne rfl (by decide),
    listFits_sound (by decide +kernel), dbxFileWhole_of_ne rfl (by decide),
    listFits_sound (by decide +kernel), dbxFileWhole_of_ne rfl (by decide), trivial⟩

/-- What the runs leave under the names `W`, `V` and `U`. -/
def sampleResult : List (Option Bytes) :=
  [['W'], ['V'], ['U']].map fun name =>
    (mapAfter .reliable 1 sampleRuns storedWorld (mapOf sampleVariables)
      (str2blob name, timeBasedBytes)).map Entry.data

theorem enroll_refines_map_sample :
    (∃ fd' store, (runAll .reliable 1 sampleRuns storedWorld).content .reliable ['o'] = some fd' ∧
      findVarInfo 1 fd' = .ok (some store) ∧
      mapOf store.varsList = mapAfter .reliable 1 sampleRuns storedWorld (mapOf sampleVariables)) ∧
    sampleResult = [some [1, 2, 3], some [1, 2, 3, 1, 2, 3], none] :=
  ⟨(enroll_refines_map (fun _ => rfl) 0 sampleRuns sampleRuns_inPlace (by decide +kernel)
    represents_storedImage sampleRuns_fit).1, by decide +kernel⟩

end TdxTools.VarEnroll.Refinement
