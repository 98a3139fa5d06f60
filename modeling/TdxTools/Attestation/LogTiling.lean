import TdxTools.Attestation.LogScan

namespace TdxTools.Attestation.LogTiling

open Python.ByteString Python.Exec Blob EventLog Actor EventLogDecoding RecordFormat LogScan
open TDEventLogActor

/-- The state in which the loop over the data starts. -/
def started (data : Bytes) (base logLength : Nat) : ProcessState :=
  { index := 0, actor := { init base logLength with data := some data } }

/-- Where one turn went: over a record that lies in the data, and that is an
event record read from the bytes which its format assigns to the fields. -/
inductive Tiled (data : Bytes) (s s' : ProcessState) : Prop
  | specId (header : TDEventLogSpecIdHeader) (hheader : s'.actor.specidHeader = some header)
      (hlogs : s'.actor.eventLogs = s.actor.eventLogs) (hstart : s.index < s'.index)
      (hend : s'.index = s.index + header.length) (hin : s'.index ≤ data.length)
  | event (entry : TDEventLogEntry) (hlogs : s'.actor.eventLogs = s.actor.eventLogs ++ [entry])
      (hstart : s.index < s'.index) (hend : s'.index = s.index + entry.length)
      (hin : s'.index ≤ data.length) (r : EventRecord)
      (hdecl : r.Declared (declaredSizes s.actor.specidHeader))
      (hbytes : r.encode = slice data s.index s'.index)
      (hdigests : entry.digests = r.digests.map Prod.snd) (hevent : entry.event = some r.event)

/-- The walk ends, and when the log was accepted every record on its way lies
in the data. -/
def Tiles (data : Bytes) (base logLength : Nat) : Prop :=
  (process (.content data) (init base logLength)).1 ≠ .running ∧
    ((process (.content data) (init base logLength)).1 = .ok () →
      ∀ s s', (processLoop data).Reaches (started data base logLength) s →
        processTurn data s = .next s' → Tiled data s s')

/-- No spec-ID record on the walk has vendor info that runs past the data to
the end of the log. -/
def VendorInside (data : Bytes) (logLength : Nat) : Prop :=
  ∀ c, Walks data logLength ⟨0, none⟩ c → ¬ Ends data logLength c.index →
    StartsNoAction data c.index → SpecIdFits (data.drop c.index) →
    c.index + specIdLength (data.drop c.index) ≤ data.length ∨
      c.index + specIdLength (data.drop c.index) < logLength

variable {data : Bytes} {base logLength : Nat}

theorem process_started (hne : data ≠ []) :
    process (.content data) (init base logLength) =
      (((processLoop data).run (started data base logLength)).1,
        ((processLoop data).run (started data base logLength)).2.actor) :=
  process_unread rfl hne

theorem process_empty : process (.content []) (init base logLength) =
    (.raised .assertionError, (started [] base logLength).actor) := rfl

theorem run_halts (s : ProcessState) : ((processLoop data).run s).1 ≠ .running := by
  obtain ⟨s', -, ⟨t, -, hrun⟩ | ⟨e, t, -, hrun⟩⟩ := (processLoop data).run_ends s
  · rw [hrun]
    simp
  · rw [hrun]
    simp

theorem raises_past {s : ProcessState} (hlt : s.index < s.actor.logLength)
    (hpast : data.length < s.index) : ∃ e t, processTurn data s = .raise e t := by
  have h8 : ¬ s.index + 8 ≤ data.length := by omega
  cases ht : processTurn data s with
  | raise e t => exact ⟨e, t, rfl⟩
  | stop t =>
    cases turned_of ht with
    | ends hends =>
      rcases hends with hle | ⟨h8', -⟩
      · omega
      · exact absurd h8' h8
  | next t =>
    cases turned_of ht with
    | specId _ hstarts => exact absurd hstarts.1 h8
    | event _ _ r _ _ hstands =>
      have hlen := (fields_of_record hstands).1
      rw [List.length_drop] at hlen
      omega

theorem tiles_of_inside (h : VendorInside data logLength) : Tiles data base logLength := by
  by_cases hne : data = []
  · subst hne
    rw [Tiles, process_empty]
    exact ⟨by simp, fun hok => by cases hok⟩
  · rw [Tiles, process_started hne]
    refine ⟨run_halts _, ?_⟩
    intro hok s s' hreach hturn
    have hlog := logLength_of_reaches hreach
    cases turned_of hturn with
    | specId hends hstarts hfits =>
      have hwalk : Walks data logLength ⟨0, none⟩ (cursorOf s) := walks_of_reaches hreach
      have hend : s.index + specIdLength (data.drop s.index) ≤ data.length := by
        rw [hlog] at hends
        rcases h _ hwalk hends hstarts hfits with hin | hlt
        · exact hin
        · by_contra hpast
          obtain ⟨e, t, hraise⟩ := raises_past
            (s := { index := s.index + specIdLength (data.drop s.index), actor := { s.actor with
              specidHeader := some (specIdHeader (data.drop s.index) (s.actor.logBase + s.index)) } })
            (Nat.lt_of_lt_of_eq hlt hlog.symm) (Nat.lt_of_not_le hpast)
          have hrun := (hreach.next hturn).run_raise hraise
          rw [hrun] at hok
          cases hok
      have hpos : 0 < specIdLength (data.drop s.index) := by
        rw [specIdLength]
        omega
      exact .specId _ rfl rfl (by dsimp only; omega) rfl hend
    | event hends hstarts r hdecl hfilled hstands =>
      have hbytes : r.encode = slice data s.index (s.index + r.encode.length) := by
        rw [slice_eq_drop_take]
        exact List.prefix_iff_eq_take.mp hstands
      have hlen := hstands.length_le
      have hpos : 16 ≤ r.encode.length := (fields_of_record (List.prefix_refl r.encode)).1
      rw [List.length_drop] at hlen
      exact .event _ rfl (by dsimp only; omega) rfl (by dsimp only; omega) r hdecl hbytes rfl rfl

theorem inside_of_tiles (h : Tiles data base logLength) : VendorInside data logLength := by
  intro c hwalk hends hstarts hfits
  by_contra hout
  push Not at hout
  obtain ⟨hpast, hlong⟩ := hout
  have hne : data ≠ [] := by
    rintro rfl
    have h8 : c.index + 8 ≤ 0 := hstarts.1
    omega
  obtain ⟨s, hreach, rfl⟩ := reaches_of_walks (s := started data base logLength) hwalk
  have hlog := logLength_of_reaches hreach
  have hmove : Moves data s.actor.logLength (cursorOf s) _ := .specId (hlog ▸ hends) hstarts hfits
  obtain ⟨s', hturn, hcursor⟩ := turn_of_moves hmove
  have hindex : s'.index = s.index + specIdLength (data.drop s.index) := congrArg Cursor.index hcursor
  have hlog' : s'.actor.logLength = logLength := logLength_of_reaches (hreach.next hturn)
  have hstop : (processLoop data).turn s' = .stop s' := by
    have hnot : ¬ s'.index < s'.actor.logLength := by
      rw [hindex, hlog']
      exact Nat.not_lt.mpr hlong
    exact if_neg hnot
  have hrun := (hreach.next hturn).run_stop hstop
  rw [Tiles, process_started hne, hrun] at h
  have hin : s'.index ≤ data.length := by
    cases h.2 rfl s s' hreach hturn with
    | specId _ _ _ _ _ hin => exact hin
    | event _ _ _ _ hin => exact hin
  rw [hindex] at hin
  exact absurd hpast (Nat.not_lt.mpr hin)

/-- Every log ends the walk; the records of every accepted log lie one after
the other in the data exactly when no vendor info runs past the data to the
end of the log. -/
theorem process_tiles_iff (data : Bytes) (base logLength : Nat) :
    Tiles data base logLength ↔ VendorInside data logLength :=
  ⟨inside_of_tiles, tiles_of_inside⟩

/-- A spec-ID record without algorithms that announces five bytes of vendor
info. -/
def cutVendor : Bytes :=
  leBytes 4 1 ++ leBytes 4 EV_NO_ACTION ++ List.replicate 48 0 ++ leBytes 4 0 ++ [5]

/-- A log that ends before its vendor info is accepted. -/
theorem cutVendor_accepted :
    (process (.content cutVendor) (init 0 61)).1 = .ok () ∧ ¬ Tiles cutVendor 0 61 := by
  refine ⟨by decide +kernel, fun h => ?_⟩
  have hinside := inside_of_tiles h ⟨0, none⟩ .refl
    (by rintro (hle | ⟨-, hr⟩); exacts [absurd hle (by decide), absurd hr (by decide +kernel)])
    ⟨by decide, by decide +kernel⟩ (by decide +kernel)
  exact absurd hinside (by decide +kernel)

end TdxTools.Attestation.LogTiling
