import Mathlib.Tactic.Common
import Mathlib.Data.Finite.Prod
import Mathlib.Data.Fintype.EquivFin
import Mathlib.Data.List.Basic

/-!
# Messages, flow keys and AVPs (`Utils.hpp`, `Utils.cpp`)

The 4096-byte message buffer, the flow key and the attribute-value pairs.
Bytes are `UInt8`: the source's `char` is signed, and where it is converted
to a wider type the conversion is written out (`charToUInt16`).
-/

namespace RadiusEventHandler

def radiusMsgCodeLen : ℕ := 1
def radiusIdentifierLen : ℕ := 1
def radiusMsgLen : ℕ := 2
def radiusAuthLen : ℕ := 16
def radiusHeaderLen : ℕ :=
  radiusMsgCodeLen + radiusIdentifierLen + radiusMsgLen + radiusAuthLen
def radiusAccountingPort : UInt16 := 1813
def radAccMsgCodeOffset : ℕ := 0
def radAccIdOffset : ℕ := 1
def radAccMsgLenOffset : ℕ := 2
def radAccAvpTypeLen : ℕ := 1
def radAccAvpTypelenLen : ℕ := 2
def timeoutValue : ℕ := 2
def radiusMsgMaxSize : ℕ := 4096

@[simp] theorem radiusHeaderLen_eq : radiusHeaderLen = 20 := rfl

@[simp] theorem radiusMsgMaxSize_eq : radiusMsgMaxSize = 4096 := rfl

@[simp] theorem radAccAvpTypeLen_eq : radAccAvpTypeLen = 1 := rfl

@[simp] theorem radAccAvpTypelenLen_eq : radAccAvpTypelenLen = 2 := rfl

/-- What the standard library throws, and reads the language leaves undefined. -/
inductive CppError where
  | outOfRange
  | lengthError
  | undefinedBehaviour
deriving DecidableEq

/-! ## Flow keys -/

/-- 5-tuple key for IPv4. -/
structure FlowKey where
  ipServer : UInt32
  ipClient : UInt32
  portServer : UInt16
  portClient : UInt16
  protoField : UInt8
deriving DecidableEq

/-- `FlowKeyType::FlowKeyType()`. -/
def FlowKey.new : FlowKey := ⟨0, 0, 0, 0, 0⟩

/-- `FlowKeyHashCompare::equal`. -/
def FlowKey.equal (x y : FlowKey) : Bool :=
  x.ipServer == y.ipServer && x.ipClient == y.ipClient &&
    x.portServer == y.portServer && x.portClient == y.portClient &&
    x.protoField == y.protoField

/-- The hash table's comparison is equality of keys. -/
theorem FlowKey.equal_iff {x y : FlowKey} : x.equal y = true ↔ x = y := by
  obtain ⟨a, b, c, d, e⟩ := x
  obtain ⟨a', b', c', d', e'⟩ := y
  simp [FlowKey.equal, and_assoc]

instance : Finite FlowKey :=
  Finite.of_injective
    (fun x : FlowKey => (x.ipServer.toFin, x.ipClient.toFin, x.portServer.toFin,
      x.portClient.toFin, x.protoField.toFin)) <| by
    rintro ⟨a, b, c, d, e⟩ ⟨a', b', c', d', e'⟩ same
    simpa [UInt32.toFin_inj, UInt16.toFin_inj, UInt8.toFin_inj] using same

/-! ## The message buffer -/

/-- `boost::array<char, RADIUS_MSG_MAX_SIZE>`. -/
structure RawDataArray where
  bytes : List UInt8
  size_eq : bytes.length = radiusMsgMaxSize

namespace RawDataArray

/-- `m_radiusMsgData.fill(0)`. -/
def zero : RawDataArray := ⟨List.replicate radiusMsgMaxSize 0, List.length_replicate⟩

/-- The byte at a position known to be inside the array. -/
def get (a : RawDataArray) (i : ℕ) : UInt8 := a.bytes.getD i 0

/-- `array::at`, which checks its index. -/
def byteAt (a : RawDataArray) (i : ℕ) : Except CppError UInt8 :=
  if i < radiusMsgMaxSize then .ok (a.get i) else .error .outOfRange

/-- A datagram is received into the array: its bytes, at most 4096 of them,
replace the first bytes of the array. -/
def receive (a : RawDataArray) (datagram : List UInt8) : RawDataArray :=
  ⟨datagram.take radiusMsgMaxSize ++ a.bytes.drop (datagram.take radiusMsgMaxSize).length, by
    rw [List.length_append, List.length_drop, a.size_eq, List.length_take]
    omega⟩

/-- `std::memcpy` of `RADIUS_MSG_LEN` bytes at `RAD_ACC_MSG_LEN_OFFSET`, then `ntohs`. -/
def lengthField (a : RawDataArray) : UInt16 :=
  UInt16.ofNat (256 * (a.get radAccMsgLenOffset).toNat + (a.get (radAccMsgLenOffset + 1)).toNat)

theorem byteAt_of_lt {a : RawDataArray} {i : ℕ} (inside : i < 4096) :
    a.byteAt i = .ok (a.get i) := by
  simp [byteAt, inside]

theorem lengthField_toNat (a : RawDataArray) :
    a.lengthField.toNat = 256 * (a.get 2).toNat + (a.get 3).toNat := by
  have hi := (a.get 2).toNat_lt
  have lo := (a.get 3).toNat_lt
  simp only [lengthField, radAccMsgLenOffset, UInt16.toNat_ofNat', Nat.reduceAdd]
  omega

theorem receive_bytes {a : RawDataArray} {datagram : List UInt8}
    (short : datagram.length ≤ 4096) :
    (a.receive datagram).bytes = datagram ++ a.bytes.drop datagram.length := by
  have whole : datagram.take radiusMsgMaxSize = datagram := List.take_of_length_le short
  simp only [receive, whole]

theorem get_receive {a : RawDataArray} {datagram : List UInt8} {i : ℕ}
    (short : datagram.length ≤ 4096) :
    (a.receive datagram).get i = if i < datagram.length then datagram.getD i 0 else a.get i := by
  simp only [get, receive_bytes short, List.getD_eq_getElem?_getD]
  by_cases inside : i < datagram.length
  · rw [if_pos inside, List.getElem?_append_left inside]
  · rw [if_neg inside, List.getElem?_append_right (by omega), List.getElem?_drop]
    congr 2
    omega

end RawDataArray

/-- `RadiusRawMsg`. -/
structure RadiusRawMsg where
  radiusMsgData : RawDataArray
  key : FlowKey
  msgLength : UInt16

namespace RadiusRawMsg

/-- `RadiusRawMsg::RadiusRawMsg()`. -/
def new : RadiusRawMsg := ⟨.zero, .new, 0⟩

def initFlowKey (msg : RadiusRawMsg) (ipSrv ipClnt : UInt32) (portSrv portClnt : UInt16)
    (proto : UInt8) : RadiusRawMsg :=
  { msg with key := ⟨ipSrv, ipClnt, portSrv, portClnt, proto⟩ }

def setLength (msg : RadiusRawMsg) (len : UInt16) : RadiusRawMsg := { msg with msgLength := len }

end RadiusRawMsg

/-! ## Message codes -/

/-- `radAccMsgTypes::AccountingRequest`. -/
def accountingRequest : UInt16 := 4

/-- `radAccMsgTypes::AccountingResponse`. -/
def accountingResponse : UInt16 := 5

@[simp] theorem accountingRequest_ne : accountingRequest ≠ accountingResponse := by decide

@[simp] theorem accountingResponse_ne : accountingResponse ≠ accountingRequest := by decide

/-- Conversion of the signed `char` to `uint16_t`. -/
def charToUInt16 (c : UInt8) : UInt16 := c.toInt8.toInt16.toUInt16

theorem charToUInt16_eq_request {c : UInt8} : charToUInt16 c = accountingRequest ↔ c = 4 := by
  have all : ∀ n < 256, charToUInt16 (UInt8.ofNat n) = accountingRequest ↔ UInt8.ofNat n = 4 := by
    decide +kernel
  simpa using all c.toNat c.toNat_lt

theorem charToUInt16_eq_response {c : UInt8} : charToUInt16 c = accountingResponse ↔ c = 5 := by
  have all : ∀ n < 256, charToUInt16 (UInt8.ofNat n) = accountingResponse ↔ UInt8.ofNat n = 5 := by
    decide +kernel
  simpa using all c.toNat c.toNat_lt

/-! ## Attribute-value pairs -/

structure RadiusAvp where
  type : UInt8
  value : List UInt8
deriving DecidableEq

abbrev AvpList := List RadiusAvp

end RadiusEventHandler
