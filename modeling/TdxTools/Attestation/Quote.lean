import TdxTools.Attestation.Utility

namespace TdxTools.Attestation.Quote

open Python.ByteString Python.Exec Python.Struct Utility

section Request

/-- What the reader of a quote request finds: the lengths agree with the QGS
message, the message is complete, and so is the report in it. -/
def CarriesReport (buffer qgsMsg tdreport : Bytes) : Prop :=
  leNat (slice buffer 16 20) = 4 + qgsMsg.length ∧
    beNat (slice buffer 24 28) = qgsMsg.length ∧
    slice buffer 28 (28 + qgsMsg.length) = qgsMsg ∧
    slice (slice buffer 28 (28 + qgsMsg.length)) 24 (24 + leNat (slice qgsMsg 16 20)) = tdreport

/-- The QGS header in front of a report of 1024 bytes. -/
def qgsHeader : Bytes :=
  leBytes 2 1 ++ leBytes 2 0 ++ leBytes 4 0 ++ leBytes 4 1048 ++ leBytes 4 0 ++ leBytes 4 1024 ++
    leBytes 4 0

def quoteHeader : Bytes :=
  leBytes 8 1 ++ leBytes 8 0 ++ leBytes 4 1052 ++ leBytes 4 0 ++ beBytes 4 1048

/-- The buffer of the request. The report's last bytes have no room in it. -/
def quoteBuffer (tdreport : Bytes) : Bytes :=
  quoteHeader ++ (qgsHeader ++ tdreport.take 1000 ++ List.replicate (TDX_QUOTE_LEN - 1052) 0)

variable {tdreport : Bytes} (hl : tdreport.length = 1024)
include hl

theorem length_quoteBuffer : (quoteBuffer tdreport).length = TDX_QUOTE_LEN := by
  rw [quoteBuffer, List.length_append, List.length_append, List.length_append, List.length_take, hl,
    List.length_replicate]
  decide

theorem qgsMsgQuoteReq_eq :
    DeviceNode.qgsMsgQuoteReq (some tdreport) = .ok (qgsHeader ++ tdreport) := by
  simp [DeviceNode.qgsMsgQuoteReq, DeviceNode.qgsFmt, pack, Fmt.encode, hl, qgsHeader,
    List.take_of_length_le]

theorem createTdxQuoteReq_eq {self : DeviceNode}
    (h : self.deviceNodeName = some .DEVICE_NODE_NAME_1_0) {addressof : Nat}
    (ha : addressof < 2 ^ 64) :
    DeviceNode.createTdxQuoteReq addressof tdreport self =
      (.ok (some (leBytes 8 addressof ++ leBytes 8 TDX_QUOTE_LEN)),
        { self with tdquote := some (quoteBuffer tdreport) }) := by
  let hdr := quoteHeader ++ (qgsHeader ++ tdreport.take 1000)
  have hlen : (qgsHeader ++ tdreport).length = 1048 := by
    rw [List.length_append, hl]
    decide
  have hcut : (qgsHeader ++ tdreport).take 1024 = qgsHeader ++ tdreport.take 1000 := by
    have hten : 1024 = qgsHeader.length + 1000 := by decide
    rw [hten, List.take_length_add_append]
  have hhdr : pack (DeviceNode.quoteHdrFmt 1024) (1, 0, 1048 + 4, 0, beBytes 4 1048,
      qgsHeader ++ tdreport, ()) = some hdr := by
    simp [DeviceNode.quoteHdrFmt, pack, Fmt.encode, hcut, hlen, hdr, quoteHeader,
      List.take_of_length_le]
  have hhdrlen : hdr.length = 1052 := by
    rw [List.length_append, List.length_append, List.length_take, hl]
    decide
  have hbuffer : setSlice (List.replicate TDX_QUOTE_LEN (0 : UInt8)) 0 1052 hdr =
      quoteBuffer tdreport := by
    simp [setSlice, hdr, quoteBuffer]
  have hreq : pack [.uint 8, .uint 8] (addressof, TDX_QUOTE_LEN, ()) =
      some (leBytes 8 addressof ++ leBytes 8 TDX_QUOTE_LEN) := by
    have ha' : addressof < 256 ^ 8 := Nat.lt_of_lt_of_eq ha (by norm_num)
    simp only [pack, Fmt.encode, if_pos ha']
    rfl
  have hroom : hdr.length ≤ TDX_QUOTE_LEN := by
    rw [hhdrlen]
    decide
  obtain ⟨name, tdquote⟩ := self
  cases h
  rw [DeviceNode.createTdxQuoteReq, qgsMsgQuoteReq_eq hl, Py.lift_ok_bind_apply, Py.get_bind_apply]
  dsimp only
  rw [hlen, hl, hhdr, Outcome.ofOption_some, Py.lift_ok_bind_apply, Py.modify_bind_apply, if_pos hroom,
    Py.modify_bind_apply, hreq, hhdrlen, hbuffer]
  rfl

theorem carriesReport_iff :
    CarriesReport (quoteBuffer tdreport) (qgsHeader ++ tdreport) tdreport ↔
      tdreport.drop 1000 = List.replicate 24 0 := by
  let tail : Bytes := List.replicate (TDX_QUOTE_LEN - 1052 - 24) 0
  let received := qgsHeader ++ (tdreport.take 1000 ++ List.replicate 24 0)
  have hlen : (qgsHeader ++ tdreport).length = 1048 := by
    rw [List.length_append, hl]
    decide
  have htake : (tdreport.take 1000 ++ List.replicate 24 (0 : UInt8)).length = 1024 := by
    simp [hl]
  have hrlen : received.length = 1048 := by
    rw [List.length_append, htake]
    decide
  have hparts : quoteBuffer tdreport = quoteHeader ++ (received ++ tail) := by
    have hz : List.replicate (TDX_QUOTE_LEN - 1052) (0 : UInt8) = List.replicate 24 0 ++ tail := by
      rw [List.replicate_append_replicate]
      rfl
    simp only [quoteBuffer, received, hz, List.append_assoc]
  have hin : slice (quoteBuffer tdreport) 16 20 = leBytes 4 1052 := by
    rw [hparts, slice_append_of_le _ _ _ _ (by decide)]
    decide
  have hbe : slice (quoteBuffer tdreport) 24 28 = beBytes 4 1048 := by
    rw [hparts, slice_append_of_le _ _ _ _ (by decide)]
    decide
  have hreceived : slice (quoteBuffer tdreport) 28 (28 + 1048) = received := by
    have h := slice_piece quoteHeader received tail
    rw [hrlen] at h
    rw [hparts]
    exact h
  have hsize : leNat (slice (qgsHeader ++ tdreport) 16 20) = 1024 := by
    rw [slice_append_of_le _ _ _ _ (by decide)]
    decide
  have hreport : slice received 24 (24 + 1024) = tdreport.take 1000 ++ List.replicate 24 0 := by
    have h := slice_piece qgsHeader (tdreport.take 1000 ++ List.replicate 24 0) []
    rw [htake, List.append_nil] at h
    exact h
  have hsplit : tdreport.take 1000 ++ List.replicate 24 0 = tdreport ↔
      tdreport.drop 1000 = List.replicate 24 0 := by
    conv_lhs => rhs; rw [← List.take_append_drop 1000 tdreport]
    rw [List.append_cancel_left_eq]
    exact eq_comm
  unfold CarriesReport
  rw [hin, hbe, hlen, hreceived, hsize, hreport, hsplit]
  constructor
  · exact fun hc => hc.2.2.2
  · intro hz
    exact ⟨by decide, by decide, congrArg (qgsHeader ++ ·) (hsplit.mpr hz), hz⟩

/-- The request carries the report exactly when the report ends with 24 zero
bytes, the room that the QGS header takes. -/
theorem quote_req_carries_iff (self : DeviceNode)
    (h : self.deviceNodeName = some .DEVICE_NODE_NAME_1_0) (addressof : Nat)
    (ha : addressof < 2 ^ 64) :
    ∃ qgsMsg req buffer, DeviceNode.qgsMsgQuoteReq (some tdreport) = .ok qgsMsg ∧
      DeviceNode.createTdxQuoteReq addressof tdreport self =
        (.ok (some req), { self with tdquote := some buffer }) ∧
      buffer.length = TDX_QUOTE_LEN ∧
      (CarriesReport buffer qgsMsg tdreport ↔ tdreport.drop 1000 = List.replicate 24 0) :=
  ⟨_, _, _, qgsMsgQuoteReq_eq hl, createTdxQuoteReq_eq hl h ha, length_quoteBuffer hl,
    carriesReport_iff hl⟩

omit hl

def guestNode : DeviceNode := { deviceNodeName := some .DEVICE_NODE_NAME_1_0, tdquote := none }

theorem quote_req_carries_iff_zeros :
    ∃ qgsMsg req buffer,
      DeviceNode.qgsMsgQuoteReq (some (List.replicate 1024 0)) = .ok qgsMsg ∧
      DeviceNode.createTdxQuoteReq 4096 (List.replicate 1024 0) guestNode =
        (.ok (some req), { guestNode with tdquote := some buffer }) ∧
      buffer.length = TDX_QUOTE_LEN ∧
      (CarriesReport buffer qgsMsg (List.replicate 1024 0) ↔
        (List.replicate 1024 (0 : UInt8)).drop 1000 = List.replicate 24 0) :=
  quote_req_carries_iff List.length_replicate guestNode rfl 4096 (by decide)

/-- A report of ones is cut. -/
theorem quote_req_cuts_ones :
    ∃ qgsMsg req buffer,
      DeviceNode.qgsMsgQuoteReq (some (List.replicate 1024 1)) = .ok qgsMsg ∧
      DeviceNode.createTdxQuoteReq 4096 (List.replicate 1024 1) guestNode =
        (.ok (some req), { guestNode with tdquote := some buffer }) ∧
      ¬ CarriesReport buffer qgsMsg (List.replicate 1024 1) := by
  have hl : (List.replicate 1024 (1 : UInt8)).length = 1024 := List.length_replicate
  refine ⟨_, _, _, qgsMsgQuoteReq_eq hl, createTdxQuoteReq_eq hl rfl (by decide), ?_⟩
  rw [carriesReport_iff hl, List.drop_replicate]
  decide

end Request

section Response

/-- A field of `w` bytes. -/
def uintAt (buf : Bytes) (pos w : Nat) : Nat := leNat ((buf.drop pos).take w)

/-- The fields of a quote buffer that a response sets. -/
structure Answer where
  status : Nat
  outLen : Nat
  dataLen : Nat
  majorVersion : Nat
  minorVersion : Nat
  msgType : Nat
  errorCode : Nat
  deriving DecidableEq

def answer (buf : Bytes) : Answer where
  status := uintAt buf 8 8
  outLen := uintAt buf 20 4
  dataLen := beNat ((buf.drop 24).take 4)
  majorVersion := uintAt buf 28 2
  minorVersion := uintAt buf 30 2
  msgType := uintAt buf 32 4
  errorCode := uintAt buf 40 4

namespace Answer

def Matches (a : Answer) : Prop := (a.dataLen : Int) = (a.outLen : Int) - 4

/-- The header of a `GET_QUOTE_RESP` without an error. -/
def Response (a : Answer) : Prop :=
  a.majorVersion = 1 ∧ a.minorVersion = 0 ∧ a.msgType = 1 ∧ a.errorCode = 0

def AllWrong (a : Answer) : Prop :=
  a.majorVersion ≠ 1 ∧ a.minorVersion ≠ 0 ∧ a.msgType ≠ 1 ∧ a.errorCode ≠ 0

instance (a : Answer) : Decidable a.Matches := inferInstanceAs (Decidable (_ = _))

instance (a : Answer) : Decidable a.Response := inferInstanceAs (Decidable (_ ∧ _))

instance (a : Answer) : Decidable a.AllWrong := inferInstanceAs (Decidable (_ ∧ _))

end Answer

/-- The quote is cut out right behind the two sizes. -/
theorem qgsMsgQuoteResp_of_length {buf : Bytes} {n : Nat} (hbuf : buf.length = 24 + n) :
    DeviceNode.qgsMsgQuoteResp buf =
      if uintAt buf 0 2 ≠ 1 ∧ uintAt buf 2 2 ≠ 0 ∧ uintAt buf 4 4 ≠ 1 ∧ uintAt buf 12 4 ≠ 0 then
        .ok none
      else .ok (some ((buf.drop 24).take (uintAt buf 20 4))) := by
  have htail : (buf.drop 24).take n = buf.drop 24 :=
    List.take_of_length_le (by rw [List.length_drop, hbuf]; omega)
  have hqgs : unpack (DeviceNode.qgsFmt n) buf =
      some (uintAt buf 0 2, uintAt buf 2 2, uintAt buf 4 4, uintAt buf 8 4, uintAt buf 12 4,
        uintAt buf 16 4, uintAt buf 20 4, buf.drop 24, ()) := by
    have hsize : calcsize (DeviceNode.qgsFmt n) = 24 + n := by
      simp [DeviceNode.qgsFmt, Fmt.size]
      omega
    rw [unpack, if_pos (hbuf.trans hsize.symm)]
    simp only [DeviceNode.qgsFmt, decode, Fmt.decode, Fmt.size, List.drop_drop, uintAt,
      Nat.reduceAdd, htail, List.drop_zero]
  have hge : ¬ 24 + n < 16 + 8 := Nat.not_lt.mpr (Nat.le_add_right _ _)
  rw [DeviceNode.qgsMsgQuoteResp, hbuf, if_neg hge, Nat.add_sub_cancel_left, hqgs]

theorem uintAt_drop (buf : Bytes) (k pos w : Nat) :
    uintAt (buf.drop k) pos w = uintAt buf (k + pos) w := by
  rw [uintAt, List.drop_drop, uintAt]

theorem qgsMsgQuoteResp_eq {buf : Bytes} {n : Nat} (hbuf : buf.length = 52 + n) :
    DeviceNode.qgsMsgQuoteResp (buf.drop 28) =
      if (answer buf).AllWrong then .ok none
      else .ok (some ((buf.drop 52).take (uintAt buf 48 4))) := by
  have hlen : (buf.drop 28).length = 24 + n := by
    rw [List.length_drop, hbuf]
    omega
  rw [qgsMsgQuoteResp_of_length hlen, uintAt_drop, uintAt_drop, uintAt_drop, uintAt_drop,
    uintAt_drop, List.drop_drop]
  rfl

theorem unpack_quoteHdr {buf : Bytes} {n : Nat} (hbuf : buf.length = 24 + n) :
    unpack [.uint 8, .uint 8, .uint 4, .uint 4, .raw n] buf =
      some (uintAt buf 0 8, uintAt buf 8 8, uintAt buf 16 4, uintAt buf 20 4, buf.drop 24, ()) := by
  have hsize : calcsize [.uint 8, .uint 8, .uint 4, .uint 4, .raw n] = 24 + n := by
    simp [Fmt.size]
    omega
  have htail : (buf.drop 24).take n = buf.drop 24 :=
    List.take_of_length_le (by rw [List.length_drop, hbuf]; omega)
  rw [unpack, if_pos (hbuf.trans hsize.symm)]
  simp only [decode, Fmt.decode, Fmt.size, List.drop_drop, uintAt, Nat.reduceAdd, htail,
    List.drop_zero]

variable {self : DeviceNode} (h : self.deviceNodeName = some .DEVICE_NODE_NAME_1_0)
  (memory : Nat → UInt8) {address : Nat} {req : Bytes}
  (hreq : pack [.uint 8, .uint 8] (address, TDX_QUOTE_LEN, ()) = some req)
include h hreq

theorem getTdquoteBytesFromReq_eq {buf : Bytes}
    (hbuf : readMemory memory address TDX_QUOTE_LEN = buf) :
    DeviceNode.getTdquoteBytesFromReq self memory req =
      if ¬ (answer buf).Matches then .ok none
      else if (answer buf).AllWrong then .ok none
      else .ok (some ((buf.drop 52).take (uintAt buf 48 4))) := by
  have hfits : Python.Struct.Fits [.uint 8, .uint 8] (address, TDX_QUOTE_LEN, ()) :=
    ⟨(inWidth_of_pack _ _ _ hreq).1, by norm_num [TDX_QUOTE_LEN], trivial⟩
  obtain ⟨b, hb, -, hunpack⟩ := unpack_pack _ _ hfits
  obtain rfl : b = req := Option.some.inj (hb.symm.trans hreq)
  have hlen : buf.length = TDX_QUOTE_LEN := by rw [← hbuf, length_readMemory]
  have hhdr := unpack_quoteHdr (n := TDX_QUOTE_LEN - 24) (hlen.trans (by decide))
  have hresp := qgsMsgQuoteResp_eq (n := TDX_QUOTE_LEN - 52) (hlen.trans (by decide))
  have hwidth : ¬ TDX_QUOTE_LEN < 24 := by decide
  have hdrop : (buf.drop 24).drop 4 = buf.drop 28 := List.drop_drop
  rw [DeviceNode.getTdquoteBytesFromReq, h]
  dsimp only
  rw [hunpack]
  dsimp only
  rw [if_neg hwidth, hbuf, hhdr]
  dsimp only
  rw [hdrop, hresp]
  rfl

/-- The filter lets a failed response through unless its length is wrong too,
or all four header fields are. -/
theorem quote_resp_filtered_iff {buf : Bytes}
    (hbuf : readMemory memory address TDX_QUOTE_LEN = buf) :
    ((∃ quote, DeviceNode.getTdquoteBytesFromReq self memory req = .ok (some quote)) →
      (answer buf).status = 0 ∧ (answer buf).Matches ∧ (answer buf).Response) ↔
    ¬ (answer buf).Matches ∨ (answer buf).AllWrong ∨
      ((answer buf).status = 0 ∧ (answer buf).Response) := by
  rw [getTdquoteBytesFromReq_eq h memory hreq hbuf]
  by_cases hm : (answer buf).Matches
  · rw [if_neg (not_not.mpr hm)]
    by_cases hw : (answer buf).AllWrong
    · simp [hw]
    · simp [hm, hw]
  · simp [hm]

omit h hreq

/-- A buffer with these first bytes and zeros behind them. -/
def bufferMemory (front : Bytes) (i : Nat) : UInt8 := front.getD i 0

/-- A response with the error status of the VMM, and no other field wrong. -/
def failedResponse : Bytes :=
  leBytes 8 1 ++ leBytes 8 0x8000000000000000 ++ leBytes 4 1052 ++ leBytes 4 28 ++ beBytes 4 24 ++
    leBytes 2 1 ++ leBytes 2 0 ++ leBytes 4 1 ++ leBytes 4 24 ++ leBytes 4 0

theorem pack_req_zero : pack [.uint 8, .uint 8] (0, TDX_QUOTE_LEN, ()) =
    some (leBytes 8 0 ++ leBytes 8 TDX_QUOTE_LEN) := by
  decide +kernel

theorem answer_failedResponse :
    answer (readMemory (bufferMemory failedResponse) 0 TDX_QUOTE_LEN) =
      { status := 0x8000000000000000, outLen := 28, dataLen := 24, majorVersion := 1
        minorVersion := 0, msgType := 1, errorCode := 0 } := by
  have hfield : ∀ pos w, pos + w ≤ TDX_QUOTE_LEN →
      ((readMemory (bufferMemory failedResponse) 0 TDX_QUOTE_LEN).drop pos).take w =
        readMemory (bufferMemory failedResponse) (0 + pos) w :=
    fun pos w hle => take_drop_readMemory _ _ hle
  simp only [answer, uintAt]
  rw [hfield 8 8 (by decide), hfield 20 4 (by decide), hfield 24 4 (by decide),
    hfield 28 2 (by decide), hfield 30 2 (by decide), hfield 32 4 (by decide),
    hfield 40 4 (by decide)]
  decide +kernel

theorem quote_resp_filtered_iff_failed :
    ((∃ quote, DeviceNode.getTdquoteBytesFromReq guestNode (bufferMemory failedResponse)
        (leBytes 8 0 ++ leBytes 8 TDX_QUOTE_LEN) = .ok (some quote)) →
      (answer (readMemory (bufferMemory failedResponse) 0 TDX_QUOTE_LEN)).status = 0 ∧
      (answer (readMemory (bufferMemory failedResponse) 0 TDX_QUOTE_LEN)).Matches ∧
      (answer (readMemory (bufferMemory failedResponse) 0 TDX_QUOTE_LEN)).Response) ↔
    ¬ (answer (readMemory (bufferMemory failedResponse) 0 TDX_QUOTE_LEN)).Matches ∨
      (answer (readMemory (bufferMemory failedResponse) 0 TDX_QUOTE_LEN)).AllWrong ∨
      ((answer (readMemory (bufferMemory failedResponse) 0 TDX_QUOTE_LEN)).status = 0 ∧
        (answer (readMemory (bufferMemory failedResponse) 0 TDX_QUOTE_LEN)).Response) :=
  quote_resp_filtered_iff rfl (bufferMemory failedResponse) pack_req_zero rfl

/-- An answer with an error status yields a quote. -/
theorem failed_response_yields_quote :
    (∃ quote, DeviceNode.getTdquoteBytesFromReq guestNode (bufferMemory failedResponse)
      (leBytes 8 0 ++ leBytes 8 TDX_QUOTE_LEN) = .ok (some quote)) ∧
    (answer (readMemory (bufferMemory failedResponse) 0 TDX_QUOTE_LEN)).status ≠ 0 := by
  rw [getTdquoteBytesFromReq_eq rfl (bufferMemory failedResponse) pack_req_zero rfl,
    answer_failedResponse]
  exact ⟨⟨_, rfl⟩, by decide⟩

end Response

end TdxTools.Attestation.Quote
