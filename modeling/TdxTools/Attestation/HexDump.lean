import TdxTools.Attestation.Blob
import TdxTools.Python.Format

namespace TdxTools.Attestation.HexDump

open Python.ByteString Python.Exec Python.Text Python.Format Blob

/-- `string.printable`. -/
def printable : Str :=
  "0123456789abcdefghijklmnopqrstuvwxyzABCDEFGHIJKLMNOPQRSTUVWXYZ".toList ++
    "!\"#$%&\x27()*+,-./:;<=>?@[\\]^_\x60\x7b|\x7d~".toList ++ " \t\n\r\x0b\x0c".toList

/-- What stands for a byte in the right column. -/
def printed (b : UInt8) : Char :=
  if printable.contains (Char.ofNat b.toNat) ∧ ¬ [0xC, 0xB, 0xA, 0xD, 0x9].contains b then
    Char.ofNat b.toNat
  else '.'

/-- The variables of `dump`, and the lines that were given to `LOG.info`. -/
structure DumpState where
  index : Nat
  linestr : Str
  printstr : Str
  lines : List Str
  deriving DecidableEq, Repr

/-- `LOG.info("%s %s", linestr, printstr)`. -/
def DumpState.info (s : DumpState) : DumpState :=
  { s with lines := s.lines ++ [s.linestr ++ ' ' :: s.printstr] }

/-- At every sixteenth byte the line before is given out and a new one begun.
The float `index / 16` is exact there, `index` is a multiple of 16 below 2 ^ 57. -/
def beginLine (self : BinaryBlob) (s : DumpState) : DumpState :=
  if s.index % 16 = 0 then
    let s := if s.linestr.length ≠ 0 then { s.info with printstr := [] } else s
    { s with linestr := formatX 8 (s.index / 16 * 16 + self.baseAddress) ++ [' ', ' '] }
  else s

def dumpTurn (self : BinaryBlob) (s : DumpState) : Turn DumpState :=
  if s.index < self.length then
    let s := beginLine self s
    match self.data[s.index]? with
    | none => .raise .indexError s
    | some b =>
      .next { s with index := s.index + 1, linestr := s.linestr ++ (formatX 2 b.toNat ++ [' '])
                     printstr := s.printstr ++ [printed b] }
  else .stop s

/-- The last line is filled up with blanks. -/
def endLine (self : BinaryBlob) (s : DumpState) : DumpState :=
  if s.index % 16 ≠ 0 then
    let blank := (List.replicate (16 - s.index % 16) [' ', ' ', ' ']).flatten
    { s with linestr := s.linestr ++ blank }.info
  else if s.index = self.length then s.info
  else s

section Turns

variable {self : BinaryBlob} {s s' : DumpState}

theorem beginLine_inside (h : s.index % 16 ≠ 0) : beginLine self s = s := if_neg h

theorem beginLine_first (h : s.index % 16 = 0) (hnone : s.linestr = []) :
    beginLine self s =
      { s with linestr := formatX 8 (s.index / 16 * 16 + self.baseAddress) ++ [' ', ' '] } := by
  have hlen : ¬ s.linestr.length ≠ 0 := by simp [hnone]
  rw [beginLine, if_pos h, if_neg hlen]

theorem beginLine_next (h : s.index % 16 = 0) (hsome : s.linestr ≠ []) :
    beginLine self s =
      { s with linestr := formatX 8 (s.index / 16 * 16 + self.baseAddress) ++ [' ', ' ']
               printstr := [], lines := s.info.lines } := by
  have hlen : s.linestr.length ≠ 0 := fun hlen => hsome (List.length_eq_zero_iff.mp hlen)
  rw [beginLine, if_pos h, if_pos hlen]
  rfl

theorem index_beginLine (self : BinaryBlob) (s : DumpState) : (beginLine self s).index = s.index := by
  by_cases h : s.index % 16 = 0
  · by_cases hnone : s.linestr = []
    · rw [beginLine_first h hnone]
    · rw [beginLine_next h hnone]
  · rw [beginLine_inside h]

theorem dumpTurn_lt {b : UInt8} (hlt : s.index < self.length) (hb : self.data[s.index]? = some b) :
    dumpTurn self s = .next { beginLine self s with
      index := s.index + 1, linestr := (beginLine self s).linestr ++ (formatX 2 b.toNat ++ [' '])
      printstr := (beginLine self s).printstr ++ [printed b] } := by
  rw [dumpTurn, if_pos hlt]
  dsimp only
  rw [index_beginLine, hb]

theorem dumpTurn_past (h : self.length ≤ s.index) : dumpTurn self s = .stop s :=
  if_neg (Nat.not_lt.mpr h)

theorem dumpTurn_next (h : dumpTurn self s = .next s') :
    s.index < self.length ∧ s'.index = s.index + 1 := by
  by_cases hlt : s.index < self.length
  · rw [dumpTurn_lt hlt (List.getElem?_eq_getElem hlt)] at h
    cases h
    exact ⟨hlt, rfl⟩
  · rw [dumpTurn_past (Nat.not_lt.mp hlt)] at h
    cases h

theorem endLine_full (h : s.index % 16 = 0) (hall : s.index = self.length) :
    endLine self s = s.info := by
  rw [endLine, if_neg (not_not_intro h), if_pos hall]

theorem endLine_rest (h : s.index % 16 ≠ 0) : endLine self s = DumpState.info { s with
    linestr := s.linestr ++ (List.replicate (16 - s.index % 16) [' ', ' ', ' ']).flatten } :=
  if_pos h

end Turns

def dumpLoop (self : BinaryBlob) : Loop DumpState where
  turn := dumpTurn self
  variant s := self.length - s.index
  decreases s s' h := by
    obtain ⟨hlt, hindex⟩ := dumpTurn_next h
    omega

def DumpState.start : DumpState := { index := 0, linestr := [], printstr := [], lines := [] }

/-- The lines that are logged. -/
def dump (self : BinaryBlob) : Outcome (List Str) :=
  match (dumpLoop self).run .start with
  | (.ok (), s) => .ok (endLine self s).lines
  | (.raised e, _) => .raised e
  | (.running, _) => .running

section Lines

/-- The bytes of line `i`. -/
def row (data : Bytes) (i : Nat) : Bytes := slice data (16 * i) (16 * (i + 1))

def hexText (bytes : Bytes) : Str := bytes.flatMap fun b => formatX 2 b.toNat ++ [' ']

theorem hexText_append (xs ys : Bytes) : hexText (xs ++ ys) = hexText xs ++ hexText ys :=
  List.flatMap_append

theorem hexText_singleton (b : UInt8) : hexText [b] = formatX 2 b.toNat ++ [' '] :=
  List.flatMap_singleton _ b

/-- The blanks for the bytes that a line has less than sixteen. -/
def blanks (bytes : Bytes) : Str := (List.replicate (16 - bytes.length) [' ', ' ', ' ']).flatten

def lineOf (address : Nat) (bytes : Bytes) : Str :=
  formatX 8 address ++ [' ', ' '] ++ hexText bytes ++ blanks bytes ++ ' ' :: bytes.map printed

variable (self : BinaryBlob)

def line (i : Nat) : Str := lineOf (self.baseAddress + 16 * i) (row self.data i)

/-- The first `k` bytes are taken: the lines before line `q` have been given
out, and line `q` holds the bytes behind them. -/
def underWay (q k : Nat) : DumpState :=
  { index := k
    linestr := formatX 8 (self.baseAddress + 16 * q) ++ [' ', ' '] ++ hexText (slice self.data (16 * q) k)
    printstr := (slice self.data (16 * q) k).map printed
    lines := (List.range q).map (line self) }

/-- The state before turn `k`. -/
def before : Nat → DumpState
  | 0 => .start
  | k + 1 => underWay self (k / 16) (k + 1)

variable {self} {q k : Nat}

theorem length_row (h : 16 * (q + 1) ≤ self.length) : (row self.data q).length = 16 := by
  have hlen : self.length = self.data.length := rfl
  rw [row, length_slice]
  omega

/-- A line with all of its bytes is given out as it stands. -/
theorem info_full (h : 16 * (q + 1) ≤ self.length) :
    (underWay self q (16 * (q + 1))).info.lines = (List.range (q + 1)).map (line self) := by
  have hnone : blanks (row self.data q) = [] := by
    rw [blanks, length_row h]
    rfl
  have hline : line self q = formatX 8 (self.baseAddress + 16 * q) ++ [' ', ' '] ++
      hexText (row self.data q) ++ ' ' :: (row self.data q).map printed := by
    rw [line, lineOf, hnone, List.append_nil]
  rw [List.range_succ, List.map_append, List.map_singleton, hline]
  rfl

theorem beginLine_full (h : 16 * (q + 1) ≤ self.length) :
    beginLine self (underWay self q (16 * (q + 1))) = underWay self (q + 1) (16 * (q + 1)) := by
  have hmod : (underWay self q (16 * (q + 1))).index % 16 = 0 := Nat.mul_mod_right 16 _
  have hsome : (underWay self q (16 * (q + 1))).linestr ≠ [] := by simp [underWay]
  have haddress : 16 * (q + 1) / 16 * 16 + self.baseAddress = self.baseAddress + 16 * (q + 1) := by
    omega
  rw [beginLine_next hmod hsome, info_full h]
  dsimp only [underWay]
  rw [haddress, slice_self]
  simp [hexText]

/-- Before its byte is taken, turn `k` has line `k / 16` under way. -/
theorem beginLine_before (hk : k ≤ self.length) :
    beginLine self (before self k) = underWay self (k / 16) k := by
  cases k with
  | zero =>
    rw [before, beginLine_first rfl rfl]
    dsimp only [underWay, DumpState.start]
    rw [slice_self]
    simp [hexText]
  | succ k =>
    rw [before]
    by_cases hmod : (k + 1) % 16 = 0
    · obtain ⟨q, hq⟩ : ∃ q, k + 1 = 16 * (q + 1) := ⟨k / 16, by omega⟩
      have hline : k / 16 = q := by omega
      have hnext : (k + 1) / 16 = q + 1 := by omega
      rw [hline, hnext, hq]
      exact beginLine_full (hq ▸ hk)
    · have hsame : (k + 1) / 16 = k / 16 := by omega
      rw [hsame]
      exact beginLine_inside hmod

theorem dumpTurn_before (hk : k < self.length) :
    dumpTurn self (before self k) = .next (before self (k + 1)) := by
  have hindex : (before self k).index = k := by
    cases k <;> rfl
  obtain ⟨b, hb⟩ : ∃ b, self.data[k]? = some b := ⟨_, List.getElem?_eq_getElem hk⟩
  have hslice : slice self.data (16 * (k / 16)) (k + 1) =
      slice self.data (16 * (k / 16)) k ++ [b] := slice_succ (Nat.mul_div_le k 16) hb
  rw [dumpTurn_lt (by rwa [hindex]) (by rwa [hindex]), beginLine_before (Nat.le_of_lt hk), hindex,
    before]
  dsimp only [underWay]
  rw [hslice, hexText_append, hexText_singleton, List.map_append, List.map_singleton]
  simp only [List.append_assoc]

theorem run_dump (self : BinaryBlob) :
    (dumpLoop self).run .start = (.ok (), before self self.length) := by
  have hstop : (dumpLoop self).turn (before self self.length) = .stop (before self self.length) := by
    apply dumpTurn_past
    cases self.length <;> exact Nat.le_refl _
  rw [← (dumpLoop self).run_stop hstop]
  apply (dumpLoop self).run_records (fun pre => before self pre.length) self.data
  intro pre b post hdata
  have hk : pre.length < self.length := by
    rw [BinaryBlob.length, hdata, List.length_append, List.length_cons]
    omega
  rw [List.length_append, List.length_singleton]
  exact dumpTurn_before hk

/-- The last line is given out with the blanks that it needs. -/
theorem endLine_before (hk : self.length = k + 1) :
    (endLine self (before self (k + 1))).lines = (List.range (k / 16 + 1)).map (line self) := by
  have hlen : self.data.length = k + 1 := hk
  by_cases hmod : (k + 1) % 16 = 0
  · obtain ⟨q, hq⟩ : ∃ q, k + 1 = 16 * (q + 1) := ⟨k / 16, by omega⟩
    have hline : k / 16 = q := by omega
    have hend : endLine self (before self (k + 1)) = (before self (k + 1)).info :=
      endLine_full hmod hk.symm
    rw [hend, before, hline, hq]
    exact info_full (by omega)
  · have hend : endLine self (before self (k + 1)) = _ := endLine_rest hmod
    have hrow : slice self.data (16 * (k / 16)) (k + 1) = row self.data (k / 16) := by
      rw [row, slice, slice, List.take_of_length_le (by omega), List.take_of_length_le (by omega)]
    have hcount : 16 - (k + 1) % 16 = 16 - (row self.data (k / 16)).length := by
      rw [row, length_slice]
      omega
    rw [hend, before, List.range_succ, List.map_append, List.map_singleton]
    dsimp only [underWay, DumpState.info]
    rw [hrow, hcount]
    rfl

/-- One line for every sixteen bytes, and one for the rest. -/
theorem dump_eq (h : self.data ≠ []) :
    dump self = .ok ((List.range ((self.length + 15) / 16)).map (line self)) := by
  obtain ⟨k, hk⟩ : ∃ k, self.length = k + 1 :=
    Nat.exists_eq_succ_of_ne_zero fun hlen => h (List.length_eq_zero_iff.mp hlen)
  have hcount : (self.length + 15) / 16 = k / 16 + 1 := by omega
  rw [dump, run_dump, hcount, hk]
  exact congrArg Outcome.ok (endLine_before hk)

end Lines

section Columns

/-- A line up to its first blank. -/
def addressColumn (line : Str) : Str := line.takeWhile (· ≠ ' ')

/-- The place of sixteen bytes behind the address and two blanks. -/
def hexColumn (line : Str) : Str := ((line.dropWhile (· ≠ ' ')).drop 2).take 48

/-- What comes behind these and one more blank. -/
def printColumn (line : Str) : Str := (line.dropWhile (· ≠ ' ')).drop 51

variable {bytes : Bytes} (address : Nat)

theorem not_blank_of_hex {c : Char} (h : (hexVal c).isSome) : decide (c ≠ ' ') = true := by
  rw [decide_eq_true_eq]
  rintro rfl
  cases h

theorem newline_not_mem_formatX {w n : Nat} : '\n' ∉ formatX w n := by
  intro hmem
  exact absurd (hexVal_of_mem_formatX _ hmem) (by decide)

theorem length_hexText (bytes : Bytes) : (hexText bytes).length = 3 * bytes.length := by
  induction bytes with
  | nil => rfl
  | cons b bytes ih =>
    rw [hexText, List.flatMap_cons, List.length_append, ← hexText, ih, formatX_byte]
    simp
    omega

theorem length_blanks (bytes : Bytes) : (blanks bytes).length = 3 * (16 - bytes.length) := by
  simp [blanks, Nat.mul_comm]

theorem length_hexColumn (h : bytes.length ≤ 16) : (hexText bytes ++ blanks bytes).length = 48 := by
  rw [List.length_append, length_hexText, length_blanks]
  omega

/-- A line is its address, two blanks and the two columns. -/
theorem lineOf_eq : lineOf address bytes = formatX 8 address ++
    ' ' :: ' ' :: ((hexText bytes ++ blanks bytes) ++ ' ' :: bytes.map printed) := by
  simp [lineOf]

theorem addressColumn_lineOf : addressColumn (lineOf address bytes) = formatX 8 address := by
  rw [addressColumn, lineOf_eq, List.takeWhile_append_of_pos
    (fun c hc => not_blank_of_hex (hexVal_of_mem_formatX c hc)), List.takeWhile_cons_of_neg (by decide),
    List.append_nil]

theorem dropWhile_lineOf : (lineOf address bytes).dropWhile (· ≠ ' ') =
    ' ' :: ' ' :: ((hexText bytes ++ blanks bytes) ++ ' ' :: bytes.map printed) := by
  rw [lineOf_eq, List.dropWhile_append_of_pos
    (fun c hc => not_blank_of_hex (hexVal_of_mem_formatX c hc)), List.dropWhile_cons_of_neg (by decide)]

theorem hexColumn_lineOf (h : bytes.length ≤ 16) :
    hexColumn (lineOf address bytes) = hexText bytes ++ blanks bytes := by
  rw [hexColumn, dropWhile_lineOf]
  exact List.take_left' (length_hexColumn h)

theorem printColumn_lineOf (h : bytes.length ≤ 16) :
    printColumn (lineOf address bytes) = bytes.map printed := by
  have hlen : (' ' :: ' ' :: (hexText bytes ++ blanks bytes ++ [' '])).length = 51 := by
    rw [List.length_cons, List.length_cons, List.length_append, length_hexColumn h]
    rfl
  have hsplit : ' ' :: ' ' :: ((hexText bytes ++ blanks bytes) ++ ' ' :: bytes.map printed) =
      ' ' :: ' ' :: (hexText bytes ++ blanks bytes ++ [' ']) ++ bytes.map printed := by simp
  rw [printColumn, dropWhile_lineOf, hsplit]
  exact List.drop_left' hlen

end Columns

section Decoding

theorem fromhex_hexText (bytes : Bytes) (s : Str) :
    fromhex (hexText bytes ++ s) = (fromhex s).map (bytes ++ ·) := by
  induction bytes with
  | nil => simp [hexText]
  | cons b bytes ih =>
    rw [hexText, List.flatMap_cons, ← hexText, List.append_assoc, List.append_assoc, fromhex_byte,
      List.singleton_append, fromhex_space (by decide), ih, Option.map_map]
    rfl

theorem fromhex_blanks (bytes : Bytes) (s : Str) : fromhex (blanks bytes ++ s) = fromhex s := by
  apply fromhex_spaces
  intro c hc
  obtain ⟨blank, hblank, hc⟩ := List.mem_flatten.mp hc
  obtain rfl := List.eq_of_mem_replicate hblank
  have hspace : c = ' ' := by simpa using hc
  rw [hspace]
  decide

/-- The columns of any lines, one behind the other, are read as their bytes. -/
theorem fromhex_columns (rows : List Bytes) :
    fromhex (rows.flatMap fun bytes => hexText bytes ++ blanks bytes) = some rows.flatten := by
  induction rows with
  | nil => rfl
  | cons bytes rows ih =>
    rw [List.flatMap_cons, List.append_assoc, fromhex_hexText, fromhex_blanks, ih]
    rfl

end Decoding

section Dump

variable {self : BinaryBlob}

theorem length_row_le (data : Bytes) (i : Nat) : (row data i).length ≤ 16 := by
  rw [row, length_slice]
  omega

/-- The bytes of the lines are those of the blob. -/
theorem flatten_rows (data : Bytes) (m : Nat) :
    ((List.range m).map (row data)).flatten = data.take (16 * m) := by
  induction m with
  | zero => rfl
  | succ m ih =>
    rw [List.range_succ, List.map_append, List.flatten_append, ih, List.map_singleton,
      List.flatten_singleton, row, ← slice_zero, ← slice_zero]
    exact (slice_split data 0 (16 * m) (16 * (m + 1)) (Nat.zero_le _) (by omega)).symm

theorem printable_codes : printable.map Char.toNat =
    List.range' 48 10 ++ List.range' 97 26 ++ List.range' 65 26 ++ (List.range' 33 15 ++
      List.range' 58 7 ++ List.range' 91 6 ++ List.range' 123 4) ++ [32, 9, 10, 13, 11, 12] := by
  decide +kernel

theorem mem_printable_iff (c : Char) : c ∈ printable ↔
    (0x20 ≤ c.toNat ∧ c.toNat < 0x7f) ∨ (9 ≤ c.toNat ∧ c.toNat ≤ 13) := by
  have hinj : Function.Injective Char.toNat := fun _ _ h => Char.toNat_inj.mp h
  rw [← List.mem_map_of_injective hinj, printable_codes]
  simp only [List.mem_append, List.mem_range'_1, List.mem_cons, List.not_mem_nil, or_false]
  omega

/-- A byte is shown as itself just if it is a printable ASCII character. -/
theorem printed_eq (b : UInt8) :
    printed b = if 0x20 ≤ b.toNat ∧ b.toNat < 0x7f then Char.ofNat b.toNat else '.' := by
  have hchars : ∀ n < 256, (Char.ofNat n).toNat = n := by decide +kernel
  have hchar := hchars b.toNat b.toNat_lt
  have hcontrol : ([0xC, 0xB, 0xA, 0xD, 0x9] : Bytes).contains b = true ↔
      9 ≤ b.toNat ∧ b.toNat ≤ 13 := by
    simp only [List.contains_iff_mem, List.mem_cons, List.not_mem_nil, or_false, ← UInt8.toNat_inj,
      UInt8.reduceToNat]
    omega
  apply if_congr _ rfl rfl
  rw [hcontrol, List.contains_iff_mem, mem_printable_iff, hchar]
  omega

theorem printed_ne_newline (b : UInt8) : printed b ≠ '\n' := by
  have hshown : ∀ n < 0x7f, 0x20 ≤ n → Char.ofNat n ≠ '\n' := by decide
  rw [printed_eq]
  split
  · next hb => exact hshown _ hb.2 hb.1
  · decide

theorem newline_not_mem_hexText (bytes : Bytes) : '\n' ∉ hexText bytes := by
  intro hmem
  obtain ⟨b, -, hb⟩ := List.mem_flatMap.mp hmem
  apply (List.mem_append.mp hb).elim newline_not_mem_formatX
  decide

theorem newline_not_mem_blanks (bytes : Bytes) : '\n' ∉ blanks bytes := by
  intro hmem
  obtain ⟨blank, hblank, hb⟩ := List.mem_flatten.mp hmem
  obtain rfl := List.eq_of_mem_replicate hblank
  revert hb
  decide

/-- What is logged at a time is one line of text. -/
theorem newline_not_mem_lineOf (address : Nat) (bytes : Bytes) : '\n' ∉ lineOf address bytes := by
  have hprinted : '\n' ∉ bytes.map printed := by
    intro hmem
    obtain ⟨b, -, hb⟩ := List.mem_map.mp hmem
    exact printed_ne_newline b hb
  simp only [lineOf_eq, List.mem_append, List.mem_cons, not_or]
  exact ⟨newline_not_mem_formatX, by decide, by decide,
    ⟨newline_not_mem_hexText bytes, newline_not_mem_blanks bytes⟩, by decide, hprinted⟩

theorem line_of_getElem? {self : BinaryBlob} {m i : Nat} {text : Str}
    (h : ((List.range m).map (line self))[i]? = some text) : text = line self i := by
  obtain ⟨hi, rfl⟩ := List.getElem?_eq_some_iff.mp h
  rw [List.getElem_map, List.getElem_range]

/-- No byte is lost. There is a line for every sixteen bytes and one for the rest,
line `i` begins with the address of its first byte, and its right column has a
character for each byte in its hex column. All hex columns together read as the
bytes of the blob. -/
theorem dump_loses_nothing (self : BinaryBlob) (h : self.data ≠ []) : ∃ lines,
    dump self = .ok lines ∧ lines.length = (self.length + 15) / 16 ∧
    (∀ i text, lines[i]? = some text → '\n' ∉ text ∧
      formatX 8 (self.baseAddress + 16 * i) <+: text ∧
      hexNat (addressColumn text) = some (self.baseAddress + 16 * i) ∧
      fromhex (hexColumn text) = some (row self.data i) ∧
      printColumn text = (row self.data i).map printed) ∧
    fromhex (lines.flatMap hexColumn) = some self.data ∧
    lines.flatMap printColumn = self.data.map printed := by
  let rows := (List.range ((self.length + 15) / 16)).map (row self.data)
  have hrows : rows.flatten = self.data := by
    have hlen : self.length = self.data.length := rfl
    rw [flatten_rows, List.take_of_length_le (by omega)]
  have hhex : ∀ i, hexColumn (line self i) = hexText (row self.data i) ++ blanks (row self.data i) :=
    fun i => hexColumn_lineOf _ (length_row_le self.data i)
  have hprint : ∀ i, printColumn (line self i) = (row self.data i).map printed :=
    fun i => printColumn_lineOf _ (length_row_le self.data i)
  refine ⟨_, dump_eq h, ?_, ?_, ?_, ?_⟩
  · rw [List.length_map, List.length_range]
  · intro i text htext
    obtain rfl := line_of_getElem? htext
    refine ⟨newline_not_mem_lineOf _ _, ?_, ?_, ?_, hprint i⟩
    · rw [line, lineOf_eq]
      exact List.prefix_append _ _
    · rw [line, addressColumn_lineOf, hexNat_formatX]
    · rw [hhex, fromhex_hexText, ← List.append_nil (blanks _), fromhex_blanks]
      exact congrArg some (List.append_nil _)
  · have hcolumns := fromhex_columns rows
    rw [hrows, List.flatMap_map] at hcolumns
    rw [List.flatMap_map]
    simpa only [hhex] using hcolumns
  · rw [← hrows, List.map_flatten, List.flatMap_map]
    simp only [hprint]
    rw [List.flatMap_def, List.map_map]
    rfl

/-- Seventeen bytes are two lines, the second of them filled up. -/
theorem dump_loses_nothing_seventeen : ∃ lines,
    dump ⟨List.replicate 17 65, 0x1000⟩ = .ok lines ∧ lines.length = 2 ∧
      fromhex (lines.flatMap hexColumn) = some (List.replicate 17 65) := by
  obtain ⟨lines, hdump, hlen, -, hhex, -⟩ :=
    dump_loses_nothing ⟨List.replicate 17 65, 0x1000⟩ (by decide)
  exact ⟨lines, hdump, hlen, hhex⟩

end Dump

example : dump ⟨[], 0⟩ = .ok [[' ']] := by decide +kernel

end TdxTools.Attestation.HexDump
