import Mathlib.Data.Int.Cast.Basic
import Mathlib.Data.List.GetD
import RadiusEventHandler.Framework.Loop
import RadiusEventHandler.Framework.Scanner
import RadiusEventHandler.Utils

/-!
# Decoding the AVPs of a message (`Worker::getAllAvps`)

The first part is the loop as the source has it: 16-bit offset, 8-bit length
byte, two nested guards and a `string::assign` whose count is a signed
difference converted to `size_t`. Neither guard has an `else`, so an iteration
whose guard fails leaves the cursor where it is.

The second part is the wire format: an AVP is its type, its length (the two
leading bytes included) and its value. `nextAvp` reads one AVP off the front
of a list of bytes, and `getAllAvps_body_step` says that one iteration of the
loop does just that to the bytes between the offset and the message length.
-/

namespace RadiusEventHandler

/-! ## The loop -/

/-- `std::string::max_size()`. Any bound from 253 up to 2^64 - 3 decides the
same assignments. -/
def stringMaxSize : ℕ := 2 ^ 63 - 1

/-- Conversion of an `int` to `size_t`. -/
def toSizeT (i : ℤ) : ℕ := (i % 2 ^ 64).toNat

/-- `value.assign(data + start, n)`: throws when the count exceeds the maximal
size of a string, and reads `count` bytes of the array without a check. -/
def stringAssign (data : RawDataArray) (start : ℕ) (n : ℤ) : Except CppError (List UInt8) :=
  if stringMaxSize < toSizeT n then .error .lengthError
  else if start + toSizeT n ≤ radiusMsgMaxSize then
    .ok ((data.bytes.drop start).take (toSizeT n))
  else .error .undefinedBehaviour

/-- The variables of the loop. -/
structure AvpCursor where
  offset : UInt16
  avpList : AvpList

/-- `offset < radMsgLen`. -/
def getAllAvpsCond (radMsgLen : UInt16) (s : AvpCursor) : Bool := decide (s.offset < radMsgLen)

def getAllAvpsBody (data : RawDataArray) (radMsgLen : UInt16) (s : AvpCursor) :
    Except CppError AvpCursor :=
  if s.offset.toNat + radAccAvpTypelenLen < radMsgLen.toNat then do
    let type ← data.byteAt s.offset.toNat
    let avpLength ← data.byteAt (s.offset.toNat + radAccAvpTypeLen)
    if s.offset.toNat + avpLength.toNat ≤ radMsgLen.toNat then do
      let value ← stringAssign data (s.offset.toNat + radAccAvpTypelenLen)
        ((avpLength.toNat : ℤ) - radAccAvpTypelenLen)
      pure { offset := s.offset + avpLength.toUInt16
             avpList := s.avpList ++ [⟨type, value⟩] }
    -- neither guard has an `else` in the source: the cursor stays
    else pure s
  else pure s

/-- The cursor when the loop is first tested. -/
def AvpCursor.start : AvpCursor :=
  ⟨UInt16.ofNat radAccMsgCodeOffset + UInt16.ofNat radiusHeaderLen, []⟩

/-- `Worker::getAllAvps`, with a bound on the number of loop tests. -/
def getAllAvps (data : RawDataArray) (fuel : ℕ) : Option (Except CppError AvpList) :=
  if data.lengthField.toNat = radiusHeaderLen then some (.ok [])
  else
    (Loop.run (getAllAvpsCond data.lengthField) (getAllAvpsBody data data.lengthField) fuel
      .start).map (Except.map AvpCursor.avpList)

/-- The call returns the list. -/
def GetAllAvpsReturns (data : RawDataArray) (avps : AvpList) : Prop :=
  ∃ fuel, getAllAvps data fuel = some (.ok avps)

/-- The call ends with the exception. -/
def GetAllAvpsThrows (data : RawDataArray) (e : CppError) : Prop :=
  ∃ fuel, getAllAvps data fuel = some (.error e)

/-- The call never leaves its loop. -/
def GetAllAvpsHangs (data : RawDataArray) : Prop := ∀ fuel, getAllAvps data fuel = none

/-! ## The wire format -/

/-- Type, length of the whole AVP, value. -/
def RadiusAvp.encode (avp : RadiusAvp) : List UInt8 :=
  avp.type :: UInt8.ofNat (avp.value.length + 2) :: avp.value

def encodeAll (avps : AvpList) : List UInt8 := avps.flatMap RadiusAvp.encode

/-- Every value fits the length byte. -/
def WireSized (avps : AvpList) : Prop := ∀ avp ∈ avps, avp.value.length ≤ 253

instance (avps : AvpList) : Decidable (WireSized avps) :=
  inferInstanceAs (Decidable (∀ avp ∈ avps, avp.value.length ≤ 253))

/-- The bytes `[i, j)` of the array. -/
def RawDataArray.window (data : RawDataArray) (i j : ℕ) : List UInt8 :=
  (data.bytes.drop i).take (j - i)

/-- The bytes behind the header, up to the message length. -/
def RawDataArray.region (data : RawDataArray) : List UInt8 :=
  data.window radiusHeaderLen data.lengthField.toNat

/-- One AVP off the front; there must be three bytes for it, and its length
must be at least two and not exceed what is left. -/
def nextAvp : List UInt8 → Option (RadiusAvp × List UInt8)
  | type :: len :: b :: rest =>
      if 2 ≤ len.toNat ∧ len.toNat ≤ rest.length + 3 then
        some (⟨type, (b :: rest).take (len.toNat - 2)⟩, (b :: rest).drop (len.toNat - 2))
      else none
  | _ => none

/-- One or two bytes are left. -/
def TooShort (rest : List UInt8) : Prop := rest.length = 1 ∨ rest.length = 2

/-- The length byte announces more bytes than are left. -/
def Overrun (rest : List UInt8) : Prop := 3 ≤ rest.length ∧ rest.length < (rest.getD 1 0).toNat

/-- The length byte is smaller than the two bytes it counts itself with. -/
def BadLength (rest : List UInt8) : Prop := 3 ≤ rest.length ∧ (rest.getD 1 0).toNat < 2

@[simp] theorem encodeAll_nil : encodeAll [] = [] := rfl

@[simp] theorem encodeAll_cons (avp : RadiusAvp) (avps : AvpList) :
    encodeAll (avp :: avps) = avp.encode ++ encodeAll avps := rfl

@[simp] theorem RadiusAvp.encode_length (avp : RadiusAvp) :
    avp.encode.length = avp.value.length + 2 := rfl

theorem length_byte {n : ℕ} (h : n ≤ 253) : (UInt8.ofNat (n + 2)).toNat = n + 2 := by
  rw [UInt8.toNat_ofNat']
  omega

theorem nextAvp_encode {avp : RadiusAvp} {rest : List UInt8} (sized : avp.value.length ≤ 253)
    (three : avp.value ≠ [] ∨ rest ≠ []) : nextAvp (avp.encode ++ rest) = some (avp, rest) := by
  obtain ⟨type, value⟩ := avp
  have len : (UInt8.ofNat (value.length + 2)).toNat = value.length + 2 := length_byte sized
  cases body : value ++ rest with
  | nil =>
      obtain ⟨rfl, rfl⟩ := List.append_eq_nil_iff.mp body
      simp at three
  | cons b tail =>
      have total : value.length + rest.length = tail.length + 1 := by
        have := congrArg List.length body
        simpa using this
      have shape : RadiusAvp.encode ⟨type, value⟩ ++ rest =
          type :: UInt8.ofNat (value.length + 2) :: b :: tail := by
        simp [RadiusAvp.encode, body]
      rw [shape, nextAvp, len, if_pos (by omega), Nat.add_sub_cancel, ← body,
        List.take_left, List.drop_left]

theorem nextAvp_eq_some {s rest : List UInt8} {avp : RadiusAvp}
    (h : nextAvp s = some (avp, rest)) :
    s = avp.encode ++ rest ∧ avp.value.length ≤ 253 ∧ (avp.value ≠ [] ∨ rest ≠ []) := by
  match s with
  | [] => cases h
  | [_] => cases h
  | [_, _] => cases h
  | type :: len :: b :: tail =>
      by_cases bounds : 2 ≤ len.toNat ∧ len.toNat ≤ tail.length + 3
      · rw [nextAvp, if_pos bounds] at h
        obtain ⟨low, high⟩ := bounds
        simp only [Option.some.injEq, Prod.mk.injEq] at h
        obtain ⟨rfl, rfl⟩ := h
        have lt := len.toNat_lt
        have length : ((b :: tail).take (len.toNat - 2)).length = len.toNat - 2 := by
          rw [List.length_take, List.length_cons]
          omega
        refine ⟨?_, by rw [length]; omega, ?_⟩
        · have byte : UInt8.ofNat (len.toNat - 2 + 2) = len := by
            rw [Nat.sub_add_cancel low, UInt8.ofNat_toNat]
          simp only [RadiusAvp.encode, length, byte, List.cons_append, List.take_append_drop]
        · -- the third byte `b` is in the value or in the rest
          by_contra nothing
          push Not at nothing
          obtain ⟨noValue, noRest⟩ := nothing
          have both := List.take_append_drop (len.toNat - 2) (b :: tail)
          rw [show (b :: tail).take (len.toNat - 2) = [] from noValue, noRest] at both
          cases both
      · rw [nextAvp, if_neg bounds] at h
        cases h

theorem nextAvp_eq_none {s : List UInt8} :
    nextAvp s = none ↔ s = [] ∨ TooShort s ∨ Overrun s ∨ BadLength s := by
  match s with
  | [] => simp [nextAvp]
  | [a] => simp [nextAvp, TooShort]
  | [a, b] => simp [nextAvp, TooShort]
  | type :: len :: b :: rest =>
      simp only [nextAvp, TooShort, Overrun, BadLength, List.length_cons, List.getD_cons_succ,
        List.getD_cons_zero]
      by_cases bounds : 2 ≤ len.toNat ∧ len.toNat ≤ rest.length + 3
      · rw [if_pos bounds]
        constructor
        · intro token
          cases token
        · rintro (empty | (two | three) | ⟨-, overrun⟩ | ⟨-, bad⟩)
          · cases empty
          all_goals omega
      · simp only [if_neg bounds, true_iff]
        omega

theorem nextAvp_smaller (s : List UInt8) (avp : RadiusAvp) (rest : List UInt8)
    (h : nextAvp s = some (avp, rest)) : rest.length < s.length := by
  obtain ⟨rfl, -, -⟩ := nextAvp_eq_some h
  simp

/-! ## Windows of the array -/

namespace RawDataArray

variable {data : RawDataArray} {i j : ℕ}

theorem window_cons (lt : i < j) (le : j ≤ 4096) :
    data.window i j = data.get i :: data.window (i + 1) j := by
  have inside : i < data.bytes.length := by
    rw [data.size_eq, radiusMsgMaxSize_eq]
    omega
  unfold window get
  rw [List.drop_eq_getElem_cons inside, List.getD_eq_getElem _ _ inside,
    show j - i = j - (i + 1) + 1 from by omega, List.take_succ_cons]

theorem window_length (data : RawDataArray) (i : ℕ) (le : j ≤ 4096) :
    (data.window i j).length = j - i := by
  rw [window, List.length_take, List.length_drop, data.size_eq, radiusMsgMaxSize_eq]
  omega

theorem window_drop (n : ℕ) : (data.window i j).drop n = data.window (i + n) j := by
  rw [window, window, List.drop_take, List.drop_drop, Nat.sub_add_eq]

theorem window_take {n : ℕ} (le : i + n ≤ j) :
    (data.window i j).take n = (data.bytes.drop i).take n := by
  rw [window, List.take_take, Nat.min_eq_left (by omega)]

theorem map_get_range' {n : ℕ} (inside : i + n ≤ 4096) :
    (List.range' i n).map data.get = (data.bytes.drop i).take n := by
  induction n generalizing i with
  | zero => rfl
  | succ n ih =>
      have lt : i < data.bytes.length := by
        rw [data.size_eq, radiusMsgMaxSize_eq]
        omega
      rw [List.range'_succ, List.map_cons, ih (by omega), List.drop_eq_getElem_cons lt,
        List.take_succ_cons, get, List.getD_eq_getElem _ _ lt]

/-- Inside a received datagram the window shows its bytes. -/
theorem window_receive {datagram : List UInt8} (short : datagram.length ≤ 4096)
    (le : j ≤ datagram.length) :
    (data.receive datagram).window i j = (datagram.drop i).take (j - i) := by
  rw [window, receive_bytes short]
  by_cases inside : i ≤ j
  · rw [List.drop_append_of_le_length (by omega), List.take_append_of_le_length]
    rw [List.length_drop]
    omega
  · rw [show j - i = 0 by omega, List.take_zero, List.take_zero]

end RawDataArray

/-! ## One iteration -/

theorem toSizeT_of_nonneg {n : ℕ} (h : n < 256) : toSizeT n = n := by
  unfold toSizeT
  omega

theorem stringMaxSize_lt_toSizeT {n : ℕ} (h : n < 2) : stringMaxSize < toSizeT ((n : ℤ) - 2) := by
  unfold toSizeT stringMaxSize
  omega

theorem stringAssign_eq {data : RawDataArray} {start n : ℕ} (small : n < 256)
    (inside : start + n ≤ 4096) :
    stringAssign data start n = .ok ((data.bytes.drop start).take n) := by
  have count := toSizeT_of_nonneg small
  have notLong : ¬ stringMaxSize < n := by
    unfold stringMaxSize
    omega
  rw [stringAssign, count, if_neg notLong, if_pos (by rw [radiusMsgMaxSize_eq]; exact inside)]

theorem stringAssign_negative {data : RawDataArray} {start n : ℕ} (small : n < 2) :
    stringAssign data start ((n : ℤ) - 2) = .error .lengthError := by
  rw [stringAssign, if_pos (stringMaxSize_lt_toSizeT small)]

section Iteration

variable {data : RawDataArray} {len : UInt16} {s : AvpCursor}

theorem getAllAvpsCond_iff :
    getAllAvpsCond len s = true ↔ s.offset.toNat < len.toNat := by
  simp [getAllAvpsCond, UInt16.lt_iff_toNat_lt]

theorem getAllAvpsBody_short (short : len.toNat ≤ s.offset.toNat + 2) :
    getAllAvpsBody data len s = .ok s := by
  rw [getAllAvpsBody, if_neg (by rw [radAccAvpTypelenLen_eq]; omega)]
  rfl

/-- An iteration with three bytes or more before the message length. -/
theorem getAllAvpsBody_long (long : s.offset.toNat + 2 < len.toNat) (le : len.toNat ≤ 4095) :
    getAllAvpsBody data len s =
      if s.offset.toNat + (data.get (s.offset.toNat + 1)).toNat ≤ len.toNat then
        (stringAssign data (s.offset.toNat + 2)
            (((data.get (s.offset.toNat + 1)).toNat : ℤ) - 2)).map fun value =>
          { offset := s.offset + (data.get (s.offset.toNat + 1)).toUInt16
            avpList := s.avpList ++ [⟨data.get s.offset.toNat, value⟩] }
      else .ok s := by
  have first : data.byteAt s.offset.toNat = .ok (data.get s.offset.toNat) :=
    RawDataArray.byteAt_of_lt (by omega)
  have second : data.byteAt (s.offset.toNat + 1) = .ok (data.get (s.offset.toNat + 1)) :=
    RawDataArray.byteAt_of_lt (by omega)
  simp only [getAllAvpsBody, radAccAvpTypelenLen_eq, radAccAvpTypeLen_eq, if_pos long, first,
    second, Nat.cast_ofNat]
  by_cases fits : s.offset.toNat + (data.get (s.offset.toNat + 1)).toNat ≤ len.toNat
  · rw [if_pos fits]
    show (if _ then _ else _) = _
    rw [if_pos fits]
    cases stringAssign data (s.offset.toNat + 2)
      (((data.get (s.offset.toNat + 1)).toNat : ℤ) - 2) <;> rfl
  · rw [if_neg fits]
    show (if _ then _ else _) = _
    rw [if_neg fits]
    rfl

/-- The offset does not wrap: it stays within the message length. -/
theorem offset_add {offset : UInt16} {b : UInt8} (le : offset.toNat + b.toNat ≤ 4095) :
    (offset + b.toUInt16).toNat = offset.toNat + b.toNat := by
  rw [UInt16.toNat_add, UInt8.toNat_toUInt16]
  omega

/-- The bytes between the offset and the message length. -/
theorem window_offset_length (data : RawDataArray) (s : AvpCursor) (le : len.toNat ≤ 4095) :
    (data.window s.offset.toNat len.toNat).length = len.toNat - s.offset.toNat :=
  data.window_length _ (Nat.le_succ_of_le le)

/-- The window seen from an offset with three bytes or more left. -/
theorem window_three (data : RawDataArray) (long : s.offset.toNat + 2 < len.toNat)
    (le : len.toNat ≤ 4095) :
    data.window s.offset.toNat len.toNat =
      data.get s.offset.toNat :: data.get (s.offset.toNat + 1) ::
        data.window (s.offset.toNat + 2) len.toNat := by
  rw [RawDataArray.window_cons (by omega) (by omega),
    RawDataArray.window_cons (by omega) (by omega)]

/-- **One iteration takes one AVP** when there is one at the offset. -/
theorem getAllAvps_body_step (le : len.toNat ≤ 4095) {avp : RadiusAvp} {rest : List UInt8}
    (token : nextAvp (data.window s.offset.toNat len.toNat) = some (avp, rest)) :
    getAllAvpsCond len s = true ∧
    ∃ t, getAllAvpsBody data len s = .ok t ∧ t.avpList = s.avpList ++ [avp] ∧
      t.offset.toNat = s.offset.toNat + (avp.value.length + 2) ∧
      data.window t.offset.toNat len.toNat = rest := by
  obtain ⟨bytes, sized, three⟩ := nextAvp_eq_some token
  have length := window_offset_length data s le
  rw [bytes, List.length_append, RadiusAvp.encode_length] at length
  -- the outer guard compares with <, so it asks for a third byte
  have long : s.offset.toNat + 2 < len.toNat := by
    rcases three with value | more
    · have := List.length_pos_iff.mpr value
      omega
    · have := List.length_pos_iff.mpr more
      omega
  refine ⟨getAllAvpsCond_iff.mpr (by omega), ?_⟩
  have front := window_three data long le
  rw [bytes, RadiusAvp.encode] at front
  simp only [List.cons_append, List.cons.injEq] at front
  obtain ⟨type, lenByte, body⟩ := front
  have lenNat : (data.get (s.offset.toNat + 1)).toNat = avp.value.length + 2 := by
    rw [← lenByte, length_byte sized]
  have value : stringAssign data (s.offset.toNat + 2)
      (((data.get (s.offset.toNat + 1)).toNat : ℤ) - 2) = .ok avp.value := by
    rw [show ((data.get (s.offset.toNat + 1)).toNat : ℤ) - 2 = (avp.value.length : ℤ) by
      rw [lenNat]; omega]
    rw [stringAssign_eq (by omega) (by omega), ← RawDataArray.window_take (j := len.toNat)
      (by omega), ← body, List.take_left]
  have offset : (s.offset + (data.get (s.offset.toNat + 1)).toUInt16).toNat =
      s.offset.toNat + (data.get (s.offset.toNat + 1)).toNat := offset_add (by omega)
  rw [getAllAvpsBody_long long le, if_pos (by omega), value]
  refine ⟨_, rfl, by rw [← type], by rw [offset, lenNat], ?_⟩
  rw [offset, lenNat, Nat.add_comm avp.value.length 2, ← Nat.add_assoc,
    ← RawDataArray.window_drop avp.value.length, ← body, List.drop_left]

/-- The second byte of a window, as the loop reads it. -/
theorem window_second (long : s.offset.toNat + 2 < len.toNat) (le : len.toNat ≤ 4095) :
    (data.window s.offset.toNat len.toNat).getD 1 0 = data.get (s.offset.toNat + 1) := by
  rw [window_three data long le]
  rfl

theorem getAllAvps_body_badLength (le : len.toNat ≤ 4095)
    (bad : BadLength (data.window s.offset.toNat len.toNat)) :
    getAllAvpsCond len s = true ∧ getAllAvpsBody data len s = .error .lengthError := by
  obtain ⟨three, small⟩ := bad
  rw [window_offset_length data s le] at three
  have long : s.offset.toNat + 2 < len.toNat := by omega
  rw [window_second long le] at small
  refine ⟨getAllAvpsCond_iff.mpr (by omega), ?_⟩
  rw [getAllAvpsBody_long long le, if_pos (by omega), stringAssign_negative small]
  rfl

/-- **An iteration that takes nothing changes nothing.** -/
theorem getAllAvps_body_stuck (le : len.toNat ≤ 4095)
    (stuck : TooShort (data.window s.offset.toNat len.toNat) ∨
      Overrun (data.window s.offset.toNat len.toNat)) :
    getAllAvpsCond len s = true ∧ getAllAvpsBody data len s = .ok s := by
  have length := window_offset_length data s le
  rcases stuck with short | ⟨three, overrun⟩
  · unfold TooShort at short
    exact ⟨getAllAvpsCond_iff.mpr (by omega), getAllAvpsBody_short (by omega)⟩
  · -- the outer guard holds and the inner one fails
    have long : s.offset.toNat + 2 < len.toNat := by omega
    rw [window_second long le] at overrun
    refine ⟨getAllAvpsCond_iff.mpr (by omega), ?_⟩
    rw [getAllAvpsBody_long long le, if_neg (by omega)]

theorem getAllAvps_cond_done (le : len.toNat ≤ 4095)
    (done : data.window s.offset.toNat len.toNat = []) : getAllAvpsCond len s = false := by
  have length := window_offset_length data s le
  rw [done, List.length_nil] at length
  rw [Bool.eq_false_iff, ne_eq, getAllAvpsCond_iff]
  omega

end Iteration

end RadiusEventHandler
