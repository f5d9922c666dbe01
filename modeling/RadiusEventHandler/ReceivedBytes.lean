import RadiusEventHandler.AvpClassification

/-!
# What is reported and what was received

`isRadAccMsg` is called with the number of received bytes and asks in a comment
whether it equals the length field, but the body never compares the two. The
loop of `getAllAvps` goes by the length field alone, so that a datagram that is
shorter than its length field has AVPs read from the zero fill of the buffer.
-/

namespace RadiusEventHandler

open Loop

/-- The buffer positions of the AVP that an iteration takes at the cursor: its
type, its length byte, and the bytes that are assigned to its value. -/
def avpPositions (data : RawDataArray) (s : AvpCursor) : List ℕ :=
  s.offset.toNat :: (s.offset.toNat + radAccAvpTypeLen) ::
    List.range' (s.offset.toNat + radAccAvpTypelenLen)
      ((data.get (s.offset.toNat + radAccAvpTypeLen)).toNat - radAccAvpTypelenLen)

/-- Every byte of every AVP that the loop appends to its list is read from a
position below `n`. -/
def OnlyReceived (data : RawDataArray) (n : ℕ) : Prop :=
  ∀ k s t, Iterates (getAllAvpsCond data.lengthField) (getAllAvpsBody data data.lengthField)
      k .start s →
    getAllAvpsCond data.lengthField s = true →
    getAllAvpsBody data data.lengthField s = .ok t → t.avpList ≠ s.avpList →
    ∀ i ∈ avpPositions data s, i < n

variable {data : RawDataArray} {len : UInt16} {s t : AvpCursor} {avps : AvpList} {i n k : ℕ}

/-- What an iteration does that returns: nothing, or it takes the AVP at these
positions, which end at the new offset and within the message length. -/
theorem getAllAvpsBody_cases (le : len.toNat ≤ 4095)
    (iteration : getAllAvpsBody data len s = .ok t) :
    t = s ∨ ∃ avp, t.avpList = s.avpList ++ [avp] ∧
      avp.encode = (avpPositions data s).map data.get ∧
      2 ≤ (data.get (s.offset.toNat + 1)).toNat ∧
      t.offset.toNat = s.offset.toNat + (data.get (s.offset.toNat + 1)).toNat ∧
      t.offset.toNat ≤ len.toNat := by
  by_cases long : s.offset.toNat + 2 < len.toNat
  · rw [getAllAvpsBody_long long le] at iteration
    by_cases fits : s.offset.toNat + (data.get (s.offset.toNat + 1)).toNat ≤ len.toNat
    · rw [if_pos fits] at iteration
      have offset := offset_add (fits.trans le)
      by_cases small : (data.get (s.offset.toNat + 1)).toNat < 2
      · rw [stringAssign_negative small] at iteration
        cases iteration
      · have two := Nat.le_of_not_lt small
        have lt := (data.get (s.offset.toNat + 1)).toNat_lt
        rw [show ((data.get (s.offset.toNat + 1)).toNat : ℤ) - 2 =
            ((data.get (s.offset.toNat + 1)).toNat - 2 : ℕ) by omega,
          stringAssign_eq (by omega) (by omega)] at iteration
        cases iteration
        refine .inr ⟨_, rfl, ?_, two, offset, offset ▸ fits⟩
        have inside : s.offset.toNat + 2 + ((data.get (s.offset.toNat + 1)).toNat - 2) ≤ 4096 := by
          omega
        rw [← RawDataArray.map_get_range' inside, RadiusAvp.encode, List.length_map,
          List.length_range',
          Nat.sub_add_cancel two, UInt8.ofNat_toNat]
        rfl
    · rw [if_neg fits] at iteration
      cases iteration
      exact .inl rfl
  · rw [getAllAvpsBody_short (Nat.le_of_not_lt long)] at iteration
    cases iteration
    exact .inl rfl

/-- The positions of an AVP are those from its offset to the next one. -/
theorem mem_avpPositions (two : 2 ≤ (data.get (s.offset.toNat + 1)).toNat)
    (next : t.offset.toNat = s.offset.toNat + (data.get (s.offset.toNat + 1)).toNat) :
    i ∈ avpPositions data s ↔ s.offset.toNat ≤ i ∧ i < t.offset.toNat := by
  rw [next]
  simp only [avpPositions, radAccAvpTypeLen_eq, radAccAvpTypelenLen_eq, List.mem_cons,
    List.mem_range'_1]
  omega

/-- No AVP is read beyond the message length. -/
theorem onlyReceived_of_le (high : data.lengthField.toNat ≤ 4095)
    (whole : data.lengthField.toNat ≤ n) : OnlyReceived data n := by
  intro k s t _ _ iteration appended i mem
  rcases getAllAvpsBody_cases high iteration with rfl | ⟨avp, -, -, two, next, within⟩
  · exact absurd rfl appended
  · have below := ((mem_avpPositions two next).mp mem).2
    exact below.trans_le (within.trans whole)

/-- A message of the header's length has no AVP. -/
theorem onlyReceived_of_header (header : data.lengthField.toNat = 20) : OnlyReceived data n := by
  intro k s t reached test
  have past := (cursor_offset (Nat.le_of_eq header.symm) (header ▸ by decide) reached).1
  have before := getAllAvpsCond_iff.mp test
  rw [header, past] at before
  exact absurd before (Nat.not_lt.mpr (Nat.le_add_right _ _))

/-- When the call returns, the last AVP ends at the message length. -/
theorem last_position (low : 20 < data.lengthField.toNat) (high : data.lengthField.toNat ≤ 4095)
    (returns : GetAllAvpsReturns data avps) :
    ∃ k s t, Iterates (getAllAvpsCond data.lengthField) (getAllAvpsBody data data.lengthField)
        k .start s ∧
      getAllAvpsCond data.lengthField s = true ∧
      getAllAvpsBody data data.lengthField s = .ok t ∧ t.avpList ≠ s.avpList ∧
      data.lengthField.toNat - 1 ∈ avpPositions data s := by
  have decomposition := (getAllAvpsReturns_iff high).mp returns
  obtain ⟨t, iterations, -, window⟩ := reaches_rest high decomposition
  -- there is an AVP, because there are bytes behind the header
  obtain ⟨k, count⟩ : ∃ k, avps.length = k + 1 := by
    apply Nat.exists_eq_succ_of_ne_zero
    intro none
    have length := region_length high
    rw [decomposition.bytes_eq, List.length_eq_zero_iff.mp none] at length
    exact absurd length.symm (Nat.sub_ne_zero_of_lt low)
  rw [count] at iterations
  obtain ⟨s, reached, test, iteration⟩ := iterations.last
  have before := getAllAvpsCond_iff.mp test
  have done := getAllAvps_cond_done high window
  rw [Bool.eq_false_iff, ne_eq, getAllAvpsCond_iff, Nat.not_lt] at done
  rcases getAllAvpsBody_cases high iteration with rfl | ⟨avp, list, -, two, next, within⟩
  · exact absurd before (Nat.not_lt.mpr done)
  · refine ⟨k, s, t, reached, test, iteration, by simp [list],
      (mem_avpPositions two next).mpr ?_⟩
    rw [Nat.le_antisymm within done]
    exact ⟨Nat.le_sub_one_of_lt before, Nat.sub_lt (Nat.zero_lt_of_lt low) Nat.one_pos⟩

/-- **For which admitted datagrams only received bytes are reported**: those
that are as long as their length field says, and those without AVPs. -/
theorem onlyReceived_iff (datagram : List UInt8) (rEndpoint lEndpoint : Endpoint)
    (avps : AvpList)
    (admitted : isRadAccMsg (.received datagram) rEndpoint lEndpoint datagram.length = true)
    (returns : GetAllAvpsReturns (RadiusRawMsg.received datagram).radiusMsgData avps) :
    OnlyReceived (RadiusRawMsg.received datagram).radiusMsgData datagram.length ↔
      (RadiusRawMsg.received datagram).radiusMsgData.lengthField.toNat ≤ datagram.length ∨
        (RadiusRawMsg.received datagram).radiusMsgData.lengthField.toNat = radiusHeaderLen := by
  obtain ⟨⟨low, high⟩, -⟩ := isRadAccMsg_iff.mp admitted
  constructor
  · intro received
    by_contra neither
    push Not at neither
    obtain ⟨truncated, longer⟩ := neither
    obtain ⟨k, s, t, reached, test, iteration, appended, last⟩ :=
      last_position (Nat.lt_of_le_of_ne low longer.symm) high returns
    have below := received k s t reached test iteration appended _ last
    exact absurd truncated (Nat.not_lt.mpr (Nat.le_of_pred_lt below))
  · rintro (whole | header)
    · exact onlyReceived_of_le high whole
    · exact onlyReceived_of_header header

/-- A datagram of 22 bytes whose length field says 23. -/
def truncatedDatagram : List UInt8 := [4, 103, 0, 23] ++ List.replicate 16 0 ++ [1, 3]

/-- The value of the AVP that is reported is a byte of the zero fill. -/
theorem truncated_reports_fill :
    truncatedDatagram.length = 22 ∧
    isRadAccMsg (.received truncatedDatagram) radiusClient radiusMonitor
      truncatedDatagram.length = true ∧
    GetAllAvpsReturns (RadiusRawMsg.received truncatedDatagram).radiusMsgData [⟨1, [0]⟩] ∧
    ¬ OnlyReceived (RadiusRawMsg.received truncatedDatagram).radiusMsgData
      truncatedDatagram.length := by
  have admitted : isRadAccMsg (.received truncatedDatagram) radiusClient radiusMonitor
      truncatedDatagram.length = true := by decide +kernel
  have returns : GetAllAvpsReturns (RadiusRawMsg.received truncatedDatagram).radiusMsgData
      [⟨1, [0]⟩] := ⟨2, by decide +kernel⟩
  refine ⟨rfl, admitted, returns, fun received => ?_⟩
  obtain ⟨k, s, t, reached, test, iteration, appended, last⟩ :=
    last_position (by decide +kernel) (by decide +kernel) returns
  have below := received k s t reached test iteration appended _ last
  exact absurd below (by decide +kernel)

theorem onlyReceived_iff_truncated :
    OnlyReceived (RadiusRawMsg.received truncatedDatagram).radiusMsgData
        truncatedDatagram.length ↔
      (RadiusRawMsg.received truncatedDatagram).radiusMsgData.lengthField.toNat ≤
          truncatedDatagram.length ∨
        (RadiusRawMsg.received truncatedDatagram).radiusMsgData.lengthField.toNat =
          radiusHeaderLen :=
  onlyReceived_iff truncatedDatagram radiusClient radiusMonitor [⟨1, [0]⟩]
    (by decide +kernel) ⟨2, by decide +kernel⟩

end RadiusEventHandler
