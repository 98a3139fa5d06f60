import TdxTools.VarEnroll.Store

namespace TdxTools.VarEnroll.RegionScan

open Python.ByteString Python.Exec Python.Struct Python.Text
open Variable Store Store.VariableStore

section Region

variable (self : VariableStore)

/-- A record header, which is at least the 60 bytes with their signature,
stands at an offset below the end of the store. -/
def HeaderAt (b : Nat) (header : VariableHeader) : Prop :=
  b < self.size ∧ header.startId = VAR_START_ID ∧
    VariableHeader.init (slice self.rawData b (b + HEADER_SIZE)) = some header

/-- The offset behind a record and the bytes that fill it up. -/
def recordEnd (b : Nat) (header : VariableHeader) : Nat := alignBy4 (b + header.fullSize)

/-- The bytes of the name; there may be less of them than the header says. -/
def nameBytes (b : Nat) (header : VariableHeader) : Bytes :=
  slice self.rawData (b + HEADER_SIZE) (b + HEADER_SIZE + header.nameSize)

def Follows (b b' : Nat) : Prop := ∃ header, HeaderAt self b header ∧ b' = recordEnd b header

/-- The offsets met when one record after the other is stepped over. -/
def Walks : Nat → Nat → Prop := Relation.ReflTransGen (Follows self)

/-- The two bytes of the signature are there where they are looked for. -/
def SignatureThere (b : Nat) : Prop := b < self.size → b + 2 ≤ self.rawData.length

def NameDecodes (b : Nat) : Prop := ∀ header, HeaderAt self b header →
  header.state = VAR_ADDED → ∃ name, decodeUtf8 (nameBytes self b header) = some name

/-- The variable made of the record at `b`. -/
def variableAt (b : Nat) (header : VariableHeader) (name : Str) : VariableTimeBasedAuth :=
  { startId := header.startId, state := header.state, rsvd := header.rsvd
    attributes := header.attributes, count := header.count, timeStampBlob := header.timeStampBlob
    pkIndex := header.pkIndex, nameSize := header.nameSize, dataSize := header.dataSize
    vendorGuid := header.vendorGuid, fullSize := header.fullSize
    vendorGuidStr := header.vendorGuidStr, name, nameBlob := nameBytes self b header
    data := slice self.rawData (b + HEADER_SIZE + header.nameSize) (b + header.fullSize) }

/-- What one turn does in each case. -/
inductive Turned (s : ReadState) : Turn ReadState → Prop
  | stop : (∀ header, ¬ HeaderAt self s.begin header) → SignatureThere self s.begin →
      Turned s (.stop s)
  | cut : ¬ SignatureThere self s.begin → Turned s (.raise .structError s)
  | dead (header : VariableHeader) : HeaderAt self s.begin header → header.state ≠ VAR_ADDED →
      Turned s (.next { s with begin := recordEnd s.begin header })
  | live (header : VariableHeader) (name : Str) : HeaderAt self s.begin header →
      header.state = VAR_ADDED → decodeUtf8 (nameBytes self s.begin header) = some name →
      Turned s (.next { begin := recordEnd s.begin header
                        vars := s.vars ++ [variableAt self s.begin header name] })
  | unnamed (header : VariableHeader) : HeaderAt self s.begin header → header.state = VAR_ADDED →
      decodeUtf8 (nameBytes self s.begin header) = none →
      Turned s (.raise .unicodeDecodeError { s with begin := recordEnd s.begin header })

end Region

section Turn

variable {self : VariableStore} {b : Nat} {header header' : VariableHeader}

theorem length_of_init {data : Bytes} (h : VariableHeader.init data = some header) :
    HEADER_SIZE ≤ data.length := by
  obtain ⟨v, hv, -⟩ := Option.map_eq_some_iff.mp h
  have hl := (unpack_eq_some hv).1
  rw [List.length_take] at hl
  have hc : calcsize headerFmt = HEADER_SIZE := rfl
  omega

theorem HeaderAt.le_length (h : HeaderAt self b header) :
    b + HEADER_SIZE ≤ self.rawData.length := by
  have hl := length_of_init h.2.2
  rw [length_slice] at hl
  simp only [HEADER_SIZE] at hl ⊢
  omega

theorem HeaderAt.unique (h : HeaderAt self b header) (h' : HeaderAt self b header') :
    header = header' := by
  have he := h.2.2.symm.trans h'.2.2
  exact Option.some.inj he

theorem unpack_signature {data : Bytes} (h : VariableHeader.init data = some header) :
    unpack [.uint 2] (data.take 2) = some (header.startId, ()) := by
  have hlen := length_of_init h
  obtain ⟨v, hv, rfl⟩ := Option.map_eq_some_iff.mp h
  have hd := (unpack_eq_some hv).2
  have hl : (data.take 2).length = calcsize [.uint 2] := by
    rw [List.length_take, Nat.min_eq_left (Nat.le_trans (by decide) hlen)]
    rfl
  rw [unpack, if_pos hl, ← hd]
  simp only [decode, Fmt.decode, Fmt.size, List.take_take, VariableHeader.ofVals, headerFmt]
  rfl

theorem take_two_slice (raw : Bytes) (b : Nat) :
    (slice raw b (b + HEADER_SIZE)).take 2 = slice raw b (b + 2) := by
  rw [slice_eq_drop_take, slice_eq_drop_take, List.take_take]
  rfl

theorem HeaderAt.first_byte (h : HeaderAt self b header) :
    self.rawData[b]? = some 0xaa := by
  have hs := unpack_signature h.2.2
  rw [take_two_slice, h.2.1] at hs
  obtain ⟨hl, hd⟩ := unpack_eq_some hs
  have htwo : leNat ((slice self.rawData b (b + 2)).take 2) = 0x55aa := congrArg Prod.fst hd
  obtain ⟨x, y, hxy⟩ := List.length_eq_two.mp (show (slice self.rawData b (b + 2)).length = 2 from hl)
  have hx : self.rawData[b]? = some x := by
    have hget := getElem?_slice self.rawData b (b + 2) 0
    rw [hxy, if_pos (by omega)] at hget
    exact hget.symm
  rw [hxy] at htwo
  have hbyte : x = 0xaa := by
    have hn : x.toNat + 256 * y.toNat = 0x55aa := by simpa [leNat] using htwo
    have hlt := x.toNat_lt
    apply UInt8.toNat_inj.mp
    change x.toNat = 0xaa
    omega
  rw [hx, hbyte]

theorem parseBody_at (h : HeaderAt self b header) : VariableTimeBasedAuth.parseBody header
    (slice self.rawData b (b + header.fullSize)) =
      (Outcome.ofOption .unicodeDecodeError (decodeUtf8 (nameBytes self b header))).bind
        fun name => .ok (variableAt self b header name) := by
  have hle := h.le_length
  have hfull : header.fullSize = header.dataSize + header.nameSize + HEADER_SIZE := rfl
  have hne : slice self.rawData b (b + header.fullSize) ≠ [] := by
    intro he
    have hl := congrArg List.length he
    rw [length_slice, List.length_nil] at hl
    simp only [HEADER_SIZE] at hle hfull
    omega
  have hname : slice (slice self.rawData b (b + header.fullSize)) HEADER_SIZE
      (HEADER_SIZE + header.nameSize) = nameBytes self b header := by
    rw [slice_slice, nameBytes, ← Nat.add_assoc, Nat.min_eq_right (by omega)]
  have hdata : (slice self.rawData b (b + header.fullSize)).drop (HEADER_SIZE + header.nameSize) =
      slice self.rawData (b + HEADER_SIZE + header.nameSize) (b + header.fullSize) := by
    rw [slice, slice, List.drop_drop, Nat.add_assoc]
  rw [VariableTimeBasedAuth.parseBody, if_neg hne, hname, hdata]
  rfl

theorem turned (self : VariableStore) (s : ReadState) : Turned self s (self.readTurn s) := by
  by_cases hlt : s.begin < self.size
  case neg =>
    rw [readTurn_past (Nat.le_of_not_lt hlt)]
    exact .stop (fun header h => hlt h.1) (fun h => absurd h hlt)
  by_cases htwo : s.begin + 2 ≤ self.rawData.length
  case neg =>
    have hnone : unpack [.uint 2] (slice self.rawData s.begin (s.begin + 2)) = none := by
      rw [unpack, if_neg]
      rw [length_slice]
      simp only [calcsize, Fmt.size, List.map_cons, List.map_nil, List.sum_cons, List.sum_nil]
      omega
    rw [readTurn, if_pos hlt, hnone]
    exact .cut (fun h => htwo (h hlt))
  have hthere : SignatureThere self s.begin := fun _ => htwo
  obtain ⟨sig, hsig⟩ : ∃ sig, unpack [.uint 2] (slice self.rawData s.begin (s.begin + 2)) =
      some (sig, ()) := by
    refine ⟨_, if_pos ?_⟩
    rw [length_slice]
    simp only [calcsize, Fmt.size, List.map_cons, List.map_nil, List.sum_cons, List.sum_nil]
    omega
  have hstart : ∀ header, HeaderAt self s.begin header → sig = VAR_START_ID := by
    intro header h
    have hs := unpack_signature h.2.2
    rw [take_two_slice, hsig] at hs
    exact (Prod.mk.inj (Option.some.inj hs)).1.trans h.2.1
  by_cases hid : sig = VAR_START_ID
  case neg =>
    rw [readTurn_foreign hlt hsig hid]
    exact .stop (fun header h => hid (hstart header h)) hthere
  subst hid
  cases hheader : VariableHeader.init (slice self.rawData s.begin (s.begin + HEADER_SIZE)) with
  | none =>
    rw [readTurn, if_pos hlt, hsig]
    dsimp only
    rw [if_neg (not_not_intro rfl), hheader]
    refine .stop (fun header h => ?_) hthere
    rw [HeaderAt, hheader] at h
    cases h.2.2
  | some header =>
    have hs := unpack_signature hheader
    rw [take_two_slice, hsig] at hs
    have hat : HeaderAt self s.begin header :=
      ⟨hlt, (Prod.mk.inj (Option.some.inj hs)).1.symm, hheader⟩
    by_cases hstate : header.state = VAR_ADDED
    case neg =>
      rw [readTurn_dead hlt hsig hheader hstate]
      exact .dead header hat hstate
    have hparse := parseBody_at hat
    cases hname : decodeUtf8 (nameBytes self s.begin header) with
    | some name =>
      rw [hname] at hparse
      rw [readTurn_live hlt hsig hheader hstate hparse]
      exact .live header name hat hstate hname
    | none =>
      rw [hname] at hparse
      rw [readTurn, if_pos hlt, hsig]
      dsimp only
      rw [if_neg (not_not_intro rfl), hheader]
      dsimp only
      rw [if_neg (not_not_intro hstate), hparse]
      exact .unnamed header hat hstate hname

theorem HeaderAt.signature (h : HeaderAt self b header) : SignatureThere self b :=
  fun _ => Nat.le_trans (by simp [HEADER_SIZE]) h.le_length

theorem turn_of_live {s : ReadState} {name : Str} (hat : HeaderAt self s.begin header)
    (hstate : header.state = VAR_ADDED)
    (hname : decodeUtf8 (nameBytes self s.begin header) = some name) : self.readTurn s =
      .next { begin := recordEnd s.begin header
              vars := s.vars ++ [variableAt self s.begin header name] } := by
  have ht := turned self s
  generalize self.readTurn s = turn at ht
  cases ht with
  | stop hno => exact absurd hat (hno header)
  | cut hcut => exact absurd hat.signature hcut
  | dead header' hat' hstate' => exact absurd (hat.unique hat' ▸ hstate) hstate'
  | live header' name' hat' _ hname' =>
    obtain rfl := hat.unique hat'
    rw [hname] at hname'
    rw [Option.some.inj hname']
  | unnamed header' hat' _ hnone =>
    obtain rfl := hat.unique hat'
    rw [hname] at hnone
    cases hnone

end Turn

section Run

variable {self : VariableStore} {s s' : ReadState} {b : Nat}

theorem follows_of_turn (h : self.readTurn s = .next s') : Follows self s.begin s'.begin := by
  have ht := turned self s
  rw [h] at ht
  cases ht with
  | dead header hat => exact ⟨header, hat, rfl⟩
  | live header _ hat => exact ⟨header, hat, rfl⟩

theorem walks_of_reaches (h : self.readLoop.Reaches s s') : Walks self s.begin s'.begin := by
  induction h with
  | refl => exact .refl
  | tail _ hturn ih => exact ih.tail (follows_of_turn hturn)

theorem next_of_follows (hraise : ∀ e t, self.readTurn s ≠ .raise e t)
    (h : Follows self s.begin b) : ∃ s', self.readTurn s = .next s' ∧ s'.begin = b := by
  obtain ⟨header, hat, rfl⟩ := h
  have ht := turned self s
  cases hn : self.readTurn s with
  | stop t =>
    rw [hn] at ht
    cases ht with
    | stop hno => exact absurd hat (hno header)
  | raise e t => exact absurd hn (hraise e t)
  | next s' =>
    rw [hn] at ht
    cases ht with
    | dead header' hat' => exact ⟨_, rfl, by rw [hat.unique hat']⟩
    | live header' _ hat' => exact ⟨_, rfl, by rw [hat.unique hat']⟩

def startState (self : VariableStore) : ReadState := { begin := headerSize, vars := self.varsList }

theorem sync_ok_of_run {t : ReadState} (h : self.readLoop.run (startState self) = (.ok (), t)) :
    self.syncToVarsList =
      .ok { self with varsList := t.vars, varsSize := t.begin - headerSize } := by
  unfold syncToVarsList
  rw [startState] at h
  rw [h]

theorem sync_raised_of_run {t : ReadState} {e : Exn}
    (h : self.readLoop.run (startState self) = (.raised e, t)) :
    self.syncToVarsList = .raised e := by
  unfold syncToVarsList
  rw [startState] at h
  rw [h]

theorem no_raise_of_sync {store' : VariableStore} (hsync : self.syncToVarsList = .ok store')
    (h : self.readLoop.Reaches (startState self) s) (e : Exn) (t : ReadState) :
    self.readTurn s ≠ .raise e t := by
  intro hturn
  rw [sync_raised_of_run (h.run_raise hturn)] at hsync
  cases hsync

theorem reaches_of_walks {store' : VariableStore} (hsync : self.syncToVarsList = .ok store')
    (h : Walks self headerSize b) :
    ∃ s, self.readLoop.Reaches (startState self) s ∧ s.begin = b := by
  induction h with
  | refl => exact ⟨_, .refl, rfl⟩
  | tail _ hstep ih =>
    obtain ⟨s, hs, rfl⟩ := ih
    obtain ⟨s', hturn, rfl⟩ := next_of_follows (no_raise_of_sync hsync hs) hstep
    exact ⟨s', hs.next hturn, rfl⟩

theorem reaches_of_sync {store' : VariableStore} (hsync : self.syncToVarsList = .ok store') :
    ∃ s, self.readLoop.Reaches (startState self) s ∧
      store' = { self with varsList := s.vars, varsSize := s.begin - headerSize } := by
  obtain ⟨s, hs, ⟨t, hstop, hrun⟩ | ⟨e, t, -, hrun⟩⟩ := self.readLoop.run_ends (startState self)
  · have hstore := sync_ok_of_run hrun
    rw [hsync] at hstore
    cases hstore
    have ht := turned self s
    change self.readTurn s = .stop t at hstop
    rw [hstop] at ht
    cases ht with
    | stop _ _ => exact ⟨s, hs, rfl⟩
  · rw [sync_raised_of_run hrun] at hsync
    cases hsync

/-- What holds of the variable of each live record holds of every variable of
the list that is read. -/
theorem forall_of_sync {store' : VariableStore} {p : VariableTimeBasedAuth → Prop}
    (hsync : self.syncToVarsList = .ok store') (hvars : ∀ v ∈ self.varsList, p v)
    (hlive : ∀ b header name, Walks self headerSize b → HeaderAt self b header →
      header.state = VAR_ADDED → decodeUtf8 (nameBytes self b header) = some name →
      p (variableAt self b header name)) : ∀ v ∈ store'.varsList, p v := by
  have hreached : ∀ s, self.readLoop.Reaches (startState self) s → ∀ v ∈ s.vars, p v := by
    intro s hs
    induction hs with
    | refl => exact hvars
    | @tail s s' hs hnext ih =>
      change self.readTurn s = .next s' at hnext
      have ht := turned self s
      rw [hnext] at ht
      cases ht with
      | dead header hat hstate => exact ih
      | live header name hat hstate hname =>
        intro v hv
        rcases List.mem_append.mp hv with hold | hnew
        · exact ih v hold
        · obtain rfl := List.mem_singleton.mp hnew
          exact hlive s.begin header name (walks_of_reaches hs) hat hstate hname
  obtain ⟨s, hs, rfl⟩ := reaches_of_sync hsync
  exact hreached s hs

/-- The region is read to the end just if each signature that is looked for is
there and each live name decodes. -/
theorem sync_ok_iff (self : VariableStore) : (∃ store', self.syncToVarsList = .ok store') ↔
    ∀ b, Walks self headerSize b → SignatureThere self b ∧ NameDecodes self b := by
  constructor
  · rintro ⟨store', hsync⟩ b hb
    obtain ⟨s, hs, rfl⟩ := reaches_of_walks hsync hb
    have hraise := no_raise_of_sync hsync hs
    have ht := turned self s
    generalize hn : self.readTurn s = turn at ht
    cases ht with
    | stop hno hthere => exact ⟨hthere, fun header hat => absurd hat (hno header)⟩
    | cut hcut => exact absurd hn (hraise _ _)
    | unnamed header hat => exact absurd hn (hraise _ _)
    | dead header hat hstate =>
      refine ⟨hat.signature, ?_⟩
      intro header' hat' hstate'
      exact absurd (hat.unique hat' ▸ hstate') hstate
    | live header name hat hstate hname =>
      refine ⟨hat.signature, ?_⟩
      intro header' hat' _
      exact ⟨name, hat.unique hat' ▸ hname⟩
  · intro h
    obtain ⟨s, hs, ⟨t, -, hrun⟩ | ⟨e, t, hturn, -⟩⟩ := self.readLoop.run_ends (startState self)
    · exact ⟨_, sync_ok_of_run hrun⟩
    · obtain ⟨hthere, hdecodes⟩ := h s.begin (walks_of_reaches hs)
      have ht := turned self s
      change self.readTurn s = .raise e t at hturn
      rw [hturn] at ht
      cases ht with
      | cut hcut => exact absurd hthere hcut
      | unnamed header hat hstate hnone =>
        obtain ⟨name, hname⟩ := hdecodes header hat hstate
        rw [hname] at hnone
        cases hnone

end Run

end TdxTools.VarEnroll.RegionScan
