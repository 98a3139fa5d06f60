import TdxTools.VarEnroll.Codec
import TdxTools.VarEnroll.RegionScan

namespace TdxTools.VarEnroll.RegionSafety

open Python.ByteString Python.Exec Python.Struct Python.Text
open Variable Store Store.VariableStore Codec RegionScan

/-- A flash device that starts with a valid NVRAM volume header and a supported
store header. The size of the store and its region are arbitrary. -/
structure SupportedFd where
  data : Bytes
  volume : FirmwareVolume
  store : VariableStore
  volume_init : FirmwareVolume.init (slice data 0 128) = some volume
  store_init : VariableStore.init volume (slice data 0 volume.size) 0 = some (store, true)

section Safety

variable (store : VariableStore)

/-- The variable that a turn puts into the list. -/
def Puts (s : ReadState) (var : VariableTimeBasedAuth) : Prop :=
  ∃ s', store.readTurn s = .next s' ∧ s'.vars = s.vars ++ [var]

structure Inside (start : Nat) (var : VariableTimeBasedAuth) : Prop where
  lower : headerSize ≤ start
  upper : ((start + HEADER_SIZE + var.nameSize : Nat) : Int) + var.dataSize ≤ store.size
  name : var.nameSize = var.nameBlob.length
  data : var.dataSize = var.data.length

/-- What is written for a variable starts with a header whose sizes are those
of the body behind it. -/
def EmitsMatching (var : VariableTimeBasedAuth) : Prop :=
  ∃ b header, var.blob = .ok b ∧ VariableHeader.init b = some header ∧
    header.nameSize = var.nameBlob.length ∧ header.dataSize = var.data.length ∧
      b.length = header.fullSize

structure ParsedSafely : Prop where
  returns : ∃ store', store.syncToVarsList = .ok store'
  grows : ∀ s s', store.readLoop.Reaches (startState store) s → store.readTurn s = .next s' →
    s.begin < s'.begin
  inside : ∀ s var, store.readLoop.Reaches (startState store) s → Puts store s var →
    Inside store s.begin var
  emits : ∀ s var, store.readLoop.Reaches (startState store) s → Puts store s var → EmitsMatching var

/-- A live record ends inside the store and inside the data of the volume. -/
def LiveFits (b : Nat) : Prop := ∀ header, HeaderAt store b header → header.state = VAR_ADDED →
  b + header.fullSize ≤ store.size ∧ b + header.fullSize ≤ store.rawData.length

/-- The condition on one offset of the walk. -/
structure SafeAt (b : Nat) : Prop where
  signature : SignatureThere store b
  name : NameDecodes store b
  fits : LiveFits store b

variable {store} {s : ReadState} {b : Nat} {header : VariableHeader}

theorem startState_le_of_reaches (h : store.readLoop.Reaches (startState store) s) :
    headerSize ≤ s.begin := by
  apply h.invariant (P := fun s : ReadState => headerSize ≤ s.begin)
  · intro s s' hs hturn
    exact Nat.le_trans hs (Nat.le_of_add_right_le (store.readTurn_advances s s' hturn).2)
  · exact Nat.le_refl _

theorem puts_iff {var : VariableTimeBasedAuth} : Puts store s var ↔
    ∃ header name, HeaderAt store s.begin header ∧ header.state = VAR_ADDED ∧
      decodeUtf8 (nameBytes store s.begin header) = some name ∧
        var = variableAt store s.begin header name := by
  constructor
  · rintro ⟨s', hturn, hvars⟩
    have ht := turned store s
    rw [hturn] at ht
    cases ht with
    | dead header hat hstate =>
      have hl := congrArg List.length hvars
      simp at hl
    | live header name hat hstate hname =>
      have hvar := List.append_cancel_left hvars
      exact ⟨header, name, hat, hstate, hname, (List.singleton_injective hvar).symm⟩
  · rintro ⟨header, name, hat, hstate, hname, rfl⟩
    exact ⟨_, turn_of_live hat hstate hname, rfl⟩

/-- The pieces that are cut out have the sizes of the header just if the record
ends inside the data. -/
theorem sizes_iff (h : HeaderAt store b header) (name : Str) :
    (header.nameSize = (variableAt store b header name).nameBlob.length ∧
      header.dataSize = (variableAt store b header name).data.length) ↔
        b + header.fullSize ≤ store.rawData.length := by
  have hle := h.le_length
  simp only [variableAt, nameBytes, length_slice, VariableHeader.fullSize]
  omega

theorem inside_iff (h : HeaderAt store b header) (hb : headerSize ≤ b) (name : Str) :
    Inside store b (variableAt store b header name) ↔
      b + header.fullSize ≤ store.size ∧ b + header.fullSize ≤ store.rawData.length := by
  have hsizes := sizes_iff h name
  have hname : (variableAt store b header name).nameSize = header.nameSize := rfl
  have hdata : (variableAt store b header name).dataSize = header.dataSize := rfl
  constructor
  · intro hin
    have hd := hin.data
    have hu := hin.upper
    rw [hdata] at hd hu
    rw [hname] at hu
    refine ⟨?_, hsizes.mp ⟨hin.name, by exact_mod_cast hd⟩⟩
    rw [VariableHeader.fullSize]
    omega
  · rintro ⟨hsize, hlen⟩
    obtain ⟨hn, hd⟩ := hsizes.mpr hlen
    refine ⟨hb, ?_, hn, by rw [hdata]; exact_mod_cast hd⟩
    rw [hname, hdata]
    rw [VariableHeader.fullSize] at hsize
    omega

theorem blob_variableAt (h : HeaderAt store b header) (name : Str) :
    ∃ bin, (variableAt store b header name).blob = .ok bin ∧
      VariableHeader.init bin = some header ∧
        bin.length = HEADER_SIZE + (variableAt store b header name).nameBlob.length +
          (variableAt store b header name).data.length := by
  obtain ⟨packed, hpack, hlen, hinit⟩ := header.init_pack (VariableHeader.init_inRange h.2.2)
  have hblob : (variableAt store b header name).blob =
      .ok (packed ++ (variableAt store b header name).nameBlob ++
        (variableAt store b header name).data) := by
    have hu : ∀ n : Nat, VariableTimeBasedAuth.unsigned (n : Int) = .ok n := fun n => by
      rw [VariableTimeBasedAuth.unsigned, if_pos (Int.natCast_nonneg n), Int.toNat_natCast]
    rw [VariableTimeBasedAuth.blob]
    simp only [variableAt, hu, Outcome.ok_bind]
    rw [VariableHeader.vals] at hpack
    rw [hpack]
    rfl
  refine ⟨_, hblob, ?_, VariableTimeBasedAuth.blob_length hblob⟩
  rw [List.append_assoc, VariableHeader.init_append hlen, hinit]

theorem emitsMatching_of_fits (h : HeaderAt store b header) (name : Str)
    (hlen : b + header.fullSize ≤ store.rawData.length) :
    EmitsMatching (variableAt store b header name) := by
  obtain ⟨hn, hd⟩ := (sizes_iff h name).mpr hlen
  obtain ⟨bin, hblob, hinit, hbin⟩ := blob_variableAt h name
  refine ⟨bin, header, hblob, hinit, hn, hd, ?_⟩
  rw [hbin, ← hn, ← hd, VariableHeader.fullSize]
  omega

theorem parsedSafely_iff (store : VariableStore) :
    ParsedSafely store ↔ ∀ b, Walks store headerSize b → SafeAt store b := by
  constructor
  · intro h b hb
    obtain ⟨store', hsync⟩ := h.returns
    obtain ⟨hthere, hdecodes⟩ := (sync_ok_iff store).mp h.returns b hb
    refine ⟨hthere, hdecodes, ?_⟩
    intro header hat hstate
    obtain ⟨s, hs, rfl⟩ := reaches_of_walks hsync hb
    obtain ⟨name, hname⟩ := hdecodes header hat hstate
    have hputs := puts_iff.mpr ⟨header, name, hat, hstate, hname, rfl⟩
    exact (inside_iff hat (startState_le_of_reaches hs) name).mp (h.inside s _ hs hputs)
  · intro h
    have hsafe : ∀ s, store.readLoop.Reaches (startState store) s → SafeAt store s.begin :=
      fun s hs => h s.begin (walks_of_reaches hs)
    refine ⟨(sync_ok_iff store).mpr fun b hb => ⟨(h b hb).signature, (h b hb).name⟩, ?_, ?_, ?_⟩
    · intro s s' _ hturn
      have ha := (store.readTurn_advances s s' hturn).2
      simp only [HEADER_SIZE] at ha
      omega
    · intro s var hs hputs
      obtain ⟨header, name, hat, hstate, -, rfl⟩ := puts_iff.mp hputs
      have hfits := (hsafe s hs).fits header hat hstate
      exact (inside_iff hat (startState_le_of_reaches hs) name).mpr hfits
    · intro s var hs hputs
      obtain ⟨header, name, hat, hstate, -, rfl⟩ := puts_iff.mp hputs
      exact emitsMatching_of_fits hat name ((hsafe s hs).fits header hat hstate).2

end Safety

/-- A malformed region is parsed safely just if, at each offset that the record
sizes lead to, two bytes are left for the signature, and a live record there
has a UTF-8 name and ends inside the store and the volume. -/
theorem fd_parsed_safely_iff (fd : SupportedFd) :
    ParsedSafely fd.store ↔ ∀ b, Walks fd.store headerSize b → SafeAt fd.store b :=
  parsedSafely_iff fd.store

/-- A live record that declares four bytes of data where the store ends. -/
def overlongHeader : VariableHeader :=
  { startId := VAR_START_ID, state := VAR_ADDED, rsvd := 0, attributes := 7, count := 0
    timeStampBlob := List.replicate 16 0, pkIndex := 0, nameSize := 0, dataSize := 4
    vendorGuid := timeBasedBytes }

def overlongImage : Bytes :=
  (blankImage 60).take 84 ++ (pack headerFmt overlongHeader.vals).getD []

def overlongFd : SupportedFd :=
  { data := overlongImage, volume := blankVolume 60
    store := { blankStore 60 with rawData := overlongImage.drop 56 }
    volume_init := by decide +kernel
    store_init := by decide +kernel }

theorem overlong_not_safe : ¬ ParsedSafely overlongFd.store := by
  intro h
  have hat : HeaderAt overlongFd.store headerSize overlongHeader :=
    ⟨by decide, rfl, by decide +kernel⟩
  have hputs : Puts overlongFd.store (startState overlongFd.store)
      (variableAt overlongFd.store headerSize overlongHeader []) :=
    puts_iff.mpr ⟨overlongHeader, [], hat, rfl, by decide +kernel, rfl⟩
  have hupper := (h.inside _ _ .refl hputs).upper
  revert hupper
  decide

end TdxTools.VarEnroll.RegionSafety
