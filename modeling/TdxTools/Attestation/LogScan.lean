import TdxTools.Attestation.RecordFormat

namespace TdxTools.Attestation.LogScan

open Python.ByteString Python.Exec Python.Dictionary Blob EventLog Actor EventLogDecoding
open RecordFormat

section SpecId

/-- How many algorithms a spec-ID record at the start of the data declares. -/
def algorithmsNumber (data : Bytes) : Nat := leNat (slice data 56 60)

def algorithmsEnd (data : Bytes) : Nat := 60 + 4 * algorithmsNumber data

def vendorSize (data : Bytes) : Nat :=
  leNat (slice data (algorithmsEnd data) (algorithmsEnd data + 1))

/-- The length of the record; the vendor info may run past the data. -/
def specIdLength (data : Bytes) : Nat := algorithmsEnd data + 1 + vendorSize data

/-- Everything but the vendor info lies in the data. -/
def SpecIdFits (data : Bytes) : Prop := algorithmsEnd data + 1 ≤ data.length

instance (data : Bytes) : Decidable (SpecIdFits data) := inferInstanceAs (Decidable (_ ≤ _))

def readSizes (data : Bytes) : Nat → Nat → Dict Nat Nat → Dict Nat Nat
  | 0, _, sizes => sizes
  | n + 1, index, sizes => readSizes data n (index + 4)
      (set sizes (leNat (slice data index (index + 2))) (leNat (slice data (index + 2) (index + 4))))

def specIdSizes (data : Bytes) : Dict Nat Nat := readSizes data (algorithmsNumber data) 60 []

/-- The object that parsing the record leaves. -/
def specIdHeader (data : Bytes) (address : Nat) : TDEventLogSpecIdHeader :=
  { address, length := specIdLength data, data := some (data.take (specIdLength data))
    rtmr := (leNat (slice data 0 4) : Int) - 1, etype := leNat (slice data 4 8)
    digestCount := leNat (slice data 8 12), algorithmsNumber := algorithmsNumber data
    digestSizes := specIdSizes data }

variable {data : Bytes}

theorem parseHeader_of_le (base : TDEventLogBase) (h : 12 ≤ data.length) :
    TDEventLogBase.parseHeader data base = (.ok (⟨data, base.address⟩, 12), { base with
      rtmr := (leNat (slice data 0 4) : Int) - 1, etype := leNat (slice data 4 8)
      digestCount := leNat (slice data 8 12) }) := by
  have h4 : ∀ k, k + 4 ≤ 12 → BinaryBlob.getUint32 ⟨data, base.address⟩ k =
      .ok (leNat (slice data k (k + 4)), k + 4) := fun k hk =>
    BinaryBlob.getUint_of_le (Nat.le_trans hk h)
  rw [TDEventLogBase.parseHeader, Py.get_bind_apply, h4 0 (by norm_num), Py.lift_ok_bind_apply]
  dsimp only
  rw [h4 4 (by norm_num), Py.lift_ok_bind_apply]
  dsimp only
  rw [Py.modify_bind_apply, h4 8 (by norm_num), Py.lift_ok_bind_apply]
  rfl

theorem parseAlgorithms_of_le (base n index : Nat) (self : TDEventLogSpecIdHeader)
    (h : index + 4 * n ≤ data.length) :
    TDEventLogSpecIdHeader.parseAlgorithms ⟨data, base⟩ n index self =
      (.ok (index + 4 * n), { self with digestSizes := readSizes data n index self.digestSizes }) := by
  induction n generalizing index self with
  | zero => rfl
  | succ n ih =>
    have h1 : BinaryBlob.getUint16 ⟨data, base⟩ index =
        .ok (leNat (slice data index (index + 2)), index + 2) :=
      BinaryBlob.getUint_of_le (by dsimp only [BinaryBlob.length]; omega)
    have h2 : BinaryBlob.getUint16 ⟨data, base⟩ (index + 2) =
        .ok (leNat (slice data (index + 2) (index + 4)), index + 4) :=
      BinaryBlob.getUint_of_le (by dsimp only [BinaryBlob.length]; omega)
    rw [TDEventLogSpecIdHeader.parseAlgorithms, h1, Py.lift_ok_bind_apply]
    dsimp only
    rw [h2, Py.lift_ok_bind_apply]
    dsimp only
    rw [Py.modify_bind_apply, ih (index + 4) _ (by omega), readSizes]
    congr 2
    omega

theorem parseAlgorithms_fits {base n index i : Nat} {self self' : TDEventLogSpecIdHeader}
    (hle : index ≤ data.length)
    (h : TDEventLogSpecIdHeader.parseAlgorithms ⟨data, base⟩ n index self = (.ok i, self')) :
    index + 4 * n ≤ data.length := by
  induction n generalizing index self with
  | zero => exact hle
  | succ n ih =>
    obtain ⟨⟨algoid, i1⟩, h1, h⟩ := Py.lift_bind_eq_ok.mp h
    obtain ⟨-, rfl, rfl⟩ := BinaryBlob.getUint_eq_ok h1
    obtain ⟨⟨digestsize, i2⟩, h2, h⟩ := Py.lift_bind_eq_ok.mp h
    obtain ⟨hlen, rfl, rfl⟩ := BinaryBlob.getUint_eq_ok h2
    dsimp only [BinaryBlob.length] at hlen
    have hnext := ih hlen h
    omega

theorem parse_of_fits (address : Nat) (h : SpecIdFits data) :
    TDEventLogSpecIdHeader.parse data { address } =
      (.ok (specIdLength data), specIdHeader data address) := by
  have hlen : 60 + 4 * algorithmsNumber data + 1 ≤ data.length := h
  have hbase : Py.within TDEventLogSpecIdHeader.toTDEventLogBase
      (fun base self => { self with toTDEventLogBase := base })
      (TDEventLogBase.parseHeader data) { address } = _ :=
    Py.within_ok (parseHeader_of_le _ (by omega))
  have hcount : BinaryBlob.getUint32 ⟨data, address⟩ 56 = .ok (algorithmsNumber data, 60) :=
    BinaryBlob.getUint_of_le (by dsimp only [BinaryBlob.length]; omega)
  have hend : 60 + 4 * algorithmsNumber data ≤ data.length := by omega
  have halgos := parseAlgorithms_of_le address (algorithmsNumber data) 60
    { address, rtmr := (leNat (slice data 0 4) : Int) - 1, etype := leNat (slice data 4 8)
      digestCount := leNat (slice data 8 12), algorithmsNumber := algorithmsNumber data } hend
  have hvendor : BinaryBlob.getUint8 ⟨data, address⟩ (algorithmsEnd data) =
      .ok (vendorSize data, algorithmsEnd data + 1) := BinaryBlob.getUint_of_le h
  rw [TDEventLogSpecIdHeader.parse, Py.bind_ok hbase]
  dsimp only
  rw [hcount, Py.lift_ok_bind_apply]
  dsimp only
  rw [Py.modify_bind_apply, Py.bind_ok halgos, ← algorithmsEnd, hvendor, Py.lift_ok_bind_apply]
  rfl

theorem fits_of_parse {address i : Nat} {header : TDEventLogSpecIdHeader}
    (h : TDEventLogSpecIdHeader.parse data { address } = (.ok i, header)) : SpecIdFits data := by
  obtain ⟨⟨blob, i0⟩, base, hh, h⟩ := Py.within_bind_eq_ok.mp h
  obtain ⟨rfl, rfl, -, -⟩ := TDEventLogBase.parseHeader_eq_ok hh
  obtain ⟨⟨n, i1⟩, h1, h⟩ := Py.lift_bind_eq_ok.mp h
  obtain ⟨hlen1, rfl, rfl⟩ := BinaryBlob.getUint_eq_ok h1
  dsimp only at h
  rw [Py.modify_bind_apply] at h
  obtain ⟨i2, s2, h2, h⟩ := Py.bind_eq_ok.mp h
  obtain ⟨⟨vendorsize, i3⟩, h3, h⟩ := Py.lift_bind_eq_ok.mp h
  obtain ⟨hlen3, -, -⟩ := BinaryBlob.getUint_eq_ok h3
  dsimp only [BinaryBlob.length] at hlen1 hlen3
  have hlen2 := parseAlgorithms_fits hlen1 h2
  rw [parseAlgorithms_of_le _ _ _ _ hlen2] at h2
  cases h2
  exact hlen3

section Prefix

variable {front : Bytes} (h : front <+: data)
include h

theorem slice_front {i j : Nat} (hj : j ≤ front.length) : slice data i j = slice front i j := by
  obtain ⟨rest, rfl⟩ := h
  exact slice_append_of_le _ _ _ _ hj

theorem algorithmsNumber_front (h60 : 60 ≤ front.length) :
    algorithmsNumber data = algorithmsNumber front := by
  rw [algorithmsNumber, algorithmsNumber, slice_front h h60]

theorem algorithmsEnd_front (h60 : 60 ≤ front.length) :
    algorithmsEnd data = algorithmsEnd front := by
  rw [algorithmsEnd, algorithmsEnd, algorithmsNumber_front h h60]

theorem specIdLength_front (hfits : SpecIdFits front) : specIdLength data = specIdLength front := by
  have hlen : 60 + 4 * algorithmsNumber front + 1 ≤ front.length := hfits
  have hend := algorithmsEnd_front h (by omega)
  rw [specIdLength, specIdLength, vendorSize, vendorSize, hend, slice_front h hfits]

theorem readSizes_front (n index : Nat) (sizes : Dict Nat Nat)
    (hlen : index + 4 * n ≤ front.length) : readSizes data n index sizes = readSizes front n index sizes := by
  induction n generalizing index sizes with
  | zero => rfl
  | succ n ih =>
    rw [readSizes, readSizes, slice_front h (by omega), slice_front h (by omega),
      ih (index + 4) _ (by omega)]

theorem specIdSizes_front (hfits : SpecIdFits front) : specIdSizes data = specIdSizes front := by
  have hlen : 60 + 4 * algorithmsNumber front + 1 ≤ front.length := hfits
  rw [specIdSizes, specIdSizes, algorithmsNumber_front h (by omega),
    readSizes_front h _ _ _ (by omega)]

theorem fits_of_front (hfits : SpecIdFits front) : SpecIdFits data := by
  have hlen : 60 + 4 * algorithmsNumber front + 1 ≤ front.length := hfits
  rw [SpecIdFits, algorithmsEnd_front h (by omega)]
  exact Nat.le_trans hfits h.length_le

/-- A spec-ID record that ends inside the first bytes is read from them alone. -/
theorem front_fits (hlen : specIdLength data ≤ front.length) : SpecIdFits front := by
  have hend : 60 + 4 * algorithmsNumber data + 1 ≤ specIdLength data := Nat.le_add_right _ _
  rw [SpecIdFits, ← algorithmsEnd_front h (by omega)]
  exact Nat.le_trans (Nat.le_add_right _ _) hlen

end Prefix

end SpecId

/-- The first two fields of the record that starts the data. -/
def registerField (data : Bytes) : Nat := leNat (slice data 0 4)

def typeField (data : Bytes) : Nat := leNat (slice data 4 8)

/-- Where the walk over the log stands, and the digest sizes in force. -/
structure Cursor where
  index : Nat
  sizes : Option (Dict Nat Nat)

/-- The walk ends: the log length is reached, or a register field 0xFFFFFFFF. -/
def Ends (data : Bytes) (logLength index : Nat) : Prop :=
  logLength ≤ index ∨ index + 8 ≤ data.length ∧ registerField (data.drop index) = 0xffffffff

/-- A record of type EV_NO_ACTION starts here. -/
def StartsNoAction (data : Bytes) (index : Nat) : Prop :=
  index + 8 ≤ data.length ∧ typeField (data.drop index) = EV_NO_ACTION

/-- The walk takes one record that fits. -/
inductive Moves (data : Bytes) (logLength : Nat) (c : Cursor) : Cursor → Prop
  | specId (hends : ¬ Ends data logLength c.index) (hstarts : StartsNoAction data c.index)
      (hfits : SpecIdFits (data.drop c.index)) :
      Moves data logLength c ⟨c.index + specIdLength (data.drop c.index),
        some (specIdSizes (data.drop c.index))⟩
  | event (hends : ¬ Ends data logLength c.index) (hstarts : ¬ StartsNoAction data c.index)
      (r : EventRecord) (hdecl : r.Declared (c.sizes.getD [])) (hfilled : r.Filled)
      (hstands : r.encode <+: data.drop c.index) :
      Moves data logLength c { c with index := c.index + r.encode.length }

theorem Ends.stuck {data : Bytes} {logLength : Nat} {c : Cursor} (h : Ends data logLength c.index)
    (c' : Cursor) : ¬ Moves data logLength c c' := by
  intro hmove
  cases hmove with
  | specId hends => exact hends h
  | event hends => exact hends h

section Fields

variable {data : Bytes} {r : EventRecord}

theorem fields_of_record (h : r.encode <+: data) :
    16 ≤ data.length ∧ registerField data = r.registerIndex ∧ typeField data = r.etype := by
  obtain ⟨rest, rfl⟩ := h
  have hsplit : r.encode ++ rest = leBytes 4 r.registerIndex ++ (leBytes 4 r.etype ++
      (leBytes 4 r.digests.length ++ encodeDigests r.digests ++ leBytes 4 r.event.length ++ r.event ++
        rest)) := by
    simp only [EventRecord.encode, List.append_assoc]
  have hfirst := slice_piece [] (leBytes 4 r.registerIndex) (leBytes 4 r.etype ++
      (leBytes 4 r.digests.length ++ encodeDigests r.digests ++ leBytes 4 r.event.length ++ r.event ++
        rest))
  have hsecond := slice_piece (leBytes 4 r.registerIndex) (leBytes 4 r.etype)
    (leBytes 4 r.digests.length ++ encodeDigests r.digests ++ leBytes 4 r.event.length ++ r.event ++
      rest)
  rw [List.nil_append, List.length_nil, Nat.zero_add, length_leBytes] at hfirst
  rw [length_leBytes, length_leBytes] at hsecond
  refine ⟨?_, ?_, ?_⟩
  · have hlen := length_encode r
    rw [List.length_append, hlen, recordLength]
    omega
  · rw [registerField, hsplit, hfirst, leNat_leBytes 4 _ (by norm_num; exact r.registerIndex_lt)]
  · rw [typeField, hsplit, hsecond, leNat_leBytes 4 _ (by norm_num; exact r.etype_lt)]

theorem peek_eq (data : Bytes) (base index : Nat) : TDEventLogActor.peek ⟨data, base⟩ index =
    if index + 8 ≤ data.length then
      .ok (registerField (data.drop index), typeField (data.drop index))
    else .raised .assertionError := by
  have hregister : registerField (data.drop index) = leNat (slice data index (index + 4)) := by
    rw [registerField, slice_drop, Nat.add_zero]
  have htype : typeField (data.drop index) = leNat (slice data (index + 4) (index + 8)) := by
    rw [typeField, slice_drop]
  rw [TDEventLogActor.peek, BinaryBlob.getUint32, BinaryBlob.getUint, BinaryBlob.length]
  by_cases h8 : index + 8 ≤ data.length
  · rw [if_pos (by dsimp only; omega), if_pos h8, Outcome.ok_bind]
    dsimp only
    rw [BinaryBlob.getUint32, BinaryBlob.getUint, BinaryBlob.length, if_pos (by dsimp only; omega),
      hregister, htype]
    rfl
  · rw [if_neg h8]
    by_cases h4 : index + 4 ≤ data.length
    · rw [if_pos h4, Outcome.ok_bind]
      dsimp only
      rw [BinaryBlob.getUint32, BinaryBlob.getUint, BinaryBlob.length, if_neg (by dsimp only; omega)]
      rfl
    · rw [if_neg h4]
      rfl

end Fields

section Turns

open TDEventLogActor

def cursorOf (s : ProcessState) : Cursor :=
  { index := s.index, sizes := s.actor.specidHeader.map TDEventLogSpecIdHeader.digestSizes }

/-- What one turn of the loop over the log can come to. -/
inductive Turned (data : Bytes) (s : ProcessState) : Turn ProcessState → Prop
  | ends (h : Ends data s.actor.logLength s.index) : Turned data s (.stop s)
  | specId (hends : ¬ Ends data s.actor.logLength s.index) (hstarts : StartsNoAction data s.index)
      (hfits : SpecIdFits (data.drop s.index)) :
      Turned data s (.next
        { index := s.index + specIdLength (data.drop s.index)
          actor := { s.actor with
            specidHeader := some (specIdHeader (data.drop s.index) (s.actor.logBase + s.index)) } })
  | event (hends : ¬ Ends data s.actor.logLength s.index) (hstarts : ¬ StartsNoAction data s.index)
      (r : EventRecord) (hdecl : r.Declared (declaredSizes s.actor.specidHeader))
      (hfilled : r.Filled) (hstands : r.encode <+: data.drop s.index) :
      Turned data s (.next
        { index := s.index + r.encode.length
          actor := { s.actor with eventLogs := s.actor.eventLogs ++
            [r.entry s.actor.specidHeader (s.actor.logBase + s.index)] } })
  | broken (e : Exn) (specidHeader : Option TDEventLogSpecIdHeader)
      (hends : ¬ Ends data s.actor.logLength s.index)
      (hstuck : ∀ c, ¬ Moves data s.actor.logLength (cursorOf s) c)
      (hnoaction : StartsNoAction data s.index → specidHeader.isSome)
      (hother : ¬ StartsNoAction data s.index → specidHeader = s.actor.specidHeader) :
      Turned data s (.raise e { s with actor := { s.actor with specidHeader } })

theorem turned (data : Bytes) (s : ProcessState) : Turned data s (processTurn data s) := by
  unfold processTurn
  split
  · next hlt =>
    rw [peek_eq]
    by_cases h8 : s.index + 8 ≤ data.length
    · rw [if_pos h8]
      dsimp only
      by_cases hr : registerField (data.drop s.index) = 0xffffffff
      · rw [if_pos hr]
        exact .ends (Or.inr ⟨h8, hr⟩)
      · have hends : ¬ Ends data s.actor.logLength s.index := by
          rintro (hle | ⟨-, hr'⟩)
          · omega
          · exact hr hr'
        rw [if_neg hr]
        by_cases ht : typeField (data.drop s.index) = EV_NO_ACTION
        · rw [if_pos ht]
          have hstarts : StartsNoAction data s.index := ⟨h8, ht⟩
          by_cases hfits : SpecIdFits (data.drop s.index)
          · rw [parse_of_fits _ hfits]
            exact .specId hends hstarts hfits
          · rcases hp : TDEventLogSpecIdHeader.parse (data.drop s.index)
              { address := s.actor.logBase + s.index } with ⟨i | e | _, header⟩
            · exact absurd (fits_of_parse hp) hfits
            · refine .broken e (some header) hends ?_ (fun _ => rfl) (fun h => absurd hstarts h)
              intro c hc
              cases hc with
              | specId _ _ hfits' => exact hfits hfits'
              | event _ hstarts' => exact hstarts' hstarts
            · exact absurd (congrArg Prod.fst hp) (TDEventLogSpecIdHeader.parse_halts _ _)
        · rw [if_neg ht]
          have hstarts : ¬ StartsNoAction data s.index := fun h => ht h.2
          rcases hp : TDEventLogEntry.parse (data.drop s.index)
            { address := s.actor.logBase + s.index, specidHeader := s.actor.specidHeader }
            with ⟨i | e | _, entry⟩
          · obtain ⟨r, hdecl, hfilled, hstands, rfl, rfl⟩ := parse_eq_ok hp
            exact .event hends hstarts r hdecl hfilled hstands
          · refine .broken e s.actor.specidHeader hends ?_ (fun h => absurd h hstarts) (fun _ => rfl)
            intro c hc
            cases hc with
            | specId _ hstarts' => exact hstarts hstarts'
            | event _ _ r hdecl hfilled hstands =>
              have hdecl : r.Declared (declaredSizes s.actor.specidHeader) := hdecl
              obtain ⟨rest, hrest : r.encode ++ rest = data.drop s.index⟩ := hstands
              have hparse := parse_record rest r hdecl hfilled (s.actor.logBase + s.index)
              rw [hrest, hp] at hparse
              cases hparse
          · exact absurd (congrArg Prod.fst hp) (TDEventLogEntry.parse_halts _ _)
    · rw [if_neg h8]
      have hends : ¬ Ends data s.actor.logLength s.index := by
        rintro (hle | ⟨h8', -⟩)
        · omega
        · exact h8 h8'
      refine .broken .assertionError s.actor.specidHeader hends ?_ (fun h => absurd h.1 h8)
        (fun _ => rfl)
      intro c hc
      cases hc with
      | specId _ hstarts => exact h8 hstarts.1
      | event _ _ r _ _ hstands =>
        have hlen := (fields_of_record hstands).1
        rw [List.length_drop] at hlen
        dsimp only [cursorOf] at hlen
        omega
  · next hlt => exact .ends (Or.inl (Nat.le_of_not_lt hlt))

variable {data : Bytes} {s s' : ProcessState} {c : Cursor}

theorem turned_of {turn : Turn ProcessState} (h : processTurn data s = turn) :
    Turned data s turn := h ▸ turned data s

/-- A turn that goes on is a move of the walk. -/
theorem moves_of_turn (h : processTurn data s = .next s') :
    Moves data s.actor.logLength (cursorOf s) (cursorOf s') := by
  cases turned_of h with
  | specId hends hstarts hfits => exact .specId hends hstarts hfits
  | event hends hstarts r hdecl hfilled hstands => exact .event hends hstarts r hdecl hfilled hstands

theorem turn_of_specId (hends : ¬ Ends data s.actor.logLength s.index)
    (hstarts : StartsNoAction data s.index) (hfits : SpecIdFits (data.drop s.index)) :
    processTurn data s = .next
      { index := s.index + specIdLength (data.drop s.index)
        actor := { s.actor with
          specidHeader := some (specIdHeader (data.drop s.index) (s.actor.logBase + s.index)) } } := by
  have hturn := turned data s
  generalize processTurn data s = turn at hturn
  cases hturn with
  | ends hends' => exact absurd hends' hends
  | specId => rfl
  | event _ hstarts' => exact absurd hstarts hstarts'
  | broken _ _ _ hstuck => exact absurd (.specId hends hstarts hfits) (hstuck _)

theorem turn_of_event (hends : ¬ Ends data s.actor.logLength s.index)
    (hstarts : ¬ StartsNoAction data s.index) {r : EventRecord}
    (hdecl : r.Declared (declaredSizes s.actor.specidHeader)) (hfilled : r.Filled)
    (hstands : r.encode <+: data.drop s.index) :
    processTurn data s = .next
      { index := s.index + r.encode.length
        actor := { s.actor with eventLogs := s.actor.eventLogs ++
          [r.entry s.actor.specidHeader (s.actor.logBase + s.index)] } } := by
  have hturn := turned data s
  generalize processTurn data s = turn at hturn
  cases hturn with
  | ends hends' => exact absurd hends' hends
  | specId _ hstarts' => exact absurd hstarts' hstarts
  | event _ _ r' hdecl' _ hstands' => rw [record_unique hdecl hdecl' hstands hstands']
  | broken _ _ _ hstuck => exact absurd (.event hends hstarts r hdecl hfilled hstands) (hstuck _)

theorem Moves.unique {logLength : Nat} {c₁ c₂ : Cursor} (h₁ : Moves data logLength c c₁)
    (h₂ : Moves data logLength c c₂) : c₁ = c₂ := by
  cases h₁ with
  | specId _ hstarts _ =>
    cases h₂ with
    | specId => rfl
    | event _ hstarts' => exact absurd hstarts hstarts'
  | event _ hstarts r hdecl _ hstands =>
    cases h₂ with
    | specId _ hstarts' => exact absurd hstarts' hstarts
    | event _ _ r' hdecl' _ hstands' => rw [record_unique hdecl hdecl' hstands hstands']

/-- Every move of the walk is made by a turn. -/
theorem turn_of_moves (h : Moves data s.actor.logLength (cursorOf s) c) :
    ∃ s', processTurn data s = .next s' ∧ cursorOf s' = c := by
  have hends : ¬ Ends data s.actor.logLength s.index := by
    cases h with
    | specId hends => exact hends
    | event hends => exact hends
  cases ht : processTurn data s with
  | next s' => exact ⟨s', rfl, (moves_of_turn ht).unique h⟩
  | stop t =>
    cases turned_of ht with
    | ends hends' => exact absurd hends' hends
  | raise e t =>
    cases turned_of ht with
    | broken _ _ _ hstuck => exact absurd h (hstuck c)

/-- A turn that goes no further leaves the loop: at the end of the walk as it
is, anywhere else with an exception. -/
theorem stops_of_stuck (h : ∀ c, ¬ Moves data s.actor.logLength (cursorOf s) c) :
    Ends data s.actor.logLength s.index ∧ processTurn data s = .stop s ∨
      ¬ Ends data s.actor.logLength s.index ∧ ∃ e specidHeader,
        processTurn data s = .raise e { s with actor := { s.actor with specidHeader } } ∧
        (StartsNoAction data s.index → specidHeader.isSome) ∧
        (¬ StartsNoAction data s.index → specidHeader = s.actor.specidHeader) := by
  cases ht : processTurn data s with
  | next s' => exact absurd (moves_of_turn ht) (h _)
  | stop t =>
    cases turned_of ht with
    | ends hends => exact Or.inl ⟨hends, rfl⟩
  | raise e t =>
    cases turned_of ht with
    | broken _ specidHeader hends _ hnoaction hother =>
      exact Or.inr ⟨hends, e, specidHeader, rfl, hnoaction, hother⟩

theorem stop_of_ends (h : Ends data s.actor.logLength s.index) : processTurn data s = .stop s := by
  have hends : Ends data s.actor.logLength (cursorOf s).index := h
  rcases stops_of_stuck hends.stuck with ⟨-, hstop⟩ | ⟨hnot, -⟩
  · exact hstop
  · exact absurd h hnot

/-- The walk over the log that a run of the loop follows. -/
def Walks (data : Bytes) (logLength : Nat) : Cursor → Cursor → Prop :=
  Relation.ReflTransGen (Moves data logLength)

theorem logLength_of_reaches (h : (processLoop data).Reaches s s') :
    s'.actor.logLength = s.actor.logLength := by
  apply h.invariant (P := fun t => t.actor.logLength = s.actor.logLength)
  · intro t t' ht hturn
    exact (processTurn_advances data t t' hturn).2.2.trans ht
  · rfl

theorem walks_of_reaches (h : (processLoop data).Reaches s s') :
    Walks data s.actor.logLength (cursorOf s) (cursorOf s') := by
  induction h with
  | refl => exact .refl
  | tail hreach hturn ih =>
    have hmove := moves_of_turn hturn
    rw [logLength_of_reaches hreach] at hmove
    exact .tail ih hmove

theorem reaches_of_walks (h : Walks data s.actor.logLength (cursorOf s) c) :
    ∃ s', (processLoop data).Reaches s s' ∧ cursorOf s' = c := by
  induction h with
  | refl => exact ⟨s, .refl, rfl⟩
  | tail _ hmove ih =>
    obtain ⟨t, hreach, rfl⟩ := ih
    rw [← logLength_of_reaches hreach] at hmove
    obtain ⟨s', hturn, hc⟩ := turn_of_moves hmove
    exact ⟨s', .tail hreach hturn, hc⟩

end Turns

end TdxTools.Attestation.LogScan
