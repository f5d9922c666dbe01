import Mathlib.Tactic.Common
import RadiusEventHandler.Utils

/-!
# The hex dump of a message (`operator<<` for `RadiusRawMsg`)

The loop of the source writes one byte of the buffer after the other to `os`
and ends a row every 16 bytes on `cout`. Whether the message has been shown
is only asked after a byte that does not end a row, and by an equality: a
length that is a multiple of 16 is stepped past, and the dump goes on to the
end of the buffer.
-/

namespace RadiusEventHandler

def hexdumpRowLen : ℕ := 16

@[simp] theorem hexdumpRowLen_eq : hexdumpRowLen = 16 := rfl

/-! ## Output -/

/-- `std::ios_base::basefield`. -/
inductive Basefield where
  | dec
  | hex
deriving DecidableEq

def Basefield.base : Basefield → ℕ
  | .dec => 10
  | .hex => 16

/-- The stream a text was inserted into; `os` may be `cout` itself. -/
inductive Output where
  | os (text : List Char)
  | cout (text : List Char)
deriving DecidableEq

/-- The part of an output that was inserted into `os`. -/
def Output.toOs : Output → List Char
  | .os text => text
  | .cout _ => []

/-- The format of `os` and everything inserted, in order. A width set by
`setw` holds for the next insertion only and is an argument there; no other
format flag is set in the program. -/
structure Ostream where
  basefield : Basefield
  fill : Char
  log : List Output

namespace Ostream

/-- What was inserted into `os`. -/
def text (s : Ostream) : List Char := s.log.flatMap Output.toOs

def insert (s : Ostream) (text : List Char) : Ostream := { s with log := s.log ++ [.os text] }

/-- An unsigned number, adjusted right in a field of the given width. -/
def insertNumber (s : Ostream) (width n : ℕ) : Ostream :=
  s.insert ((Nat.toDigits s.basefield.base n).leftpad width s.fill)

/-- `cout << endl`. -/
def coutEndl (s : Ostream) : Ostream := { s with log := s.log ++ [.cout ['\n']] }

@[simp] theorem text_insert (s : Ostream) (t : List Char) : (s.insert t).text = s.text ++ t := by
  simp [text, insert, Output.toOs]

@[simp] theorem text_coutEndl (s : Ostream) : s.coutEndl.text = s.text := by
  simp [text, coutEndl, Output.toOs]

@[simp] theorem text_basefield (s : Ostream) (b : Basefield) :
    ({ s with basefield := b } : Ostream).text = s.text := rfl

end Ostream

/-! ## The loop -/

structure HexDump where
  os : Ostream
  bytesInRowCnt : ℕ
  msgBytesCnt : ℕ

/-- `os <<"0x"<<hex<<setfill('0')<<setw(2)<<right<<(((uint16_t)(*it))&0xff)<< " "`. -/
def insertByte (os : Ostream) (it : UInt8) : Ostream :=
  (Ostream.insertNumber { os.insert ['0', 'x'] with basefield := .hex, fill := '0' } 2
    (charToUInt16 it &&& 0xff).toNat).insert [' ']

/-- The loop from the given position of the iterator on. -/
def hexDumpLoop (msgLength : UInt16) : List UInt8 → HexDump → HexDump
  | [], s => s
  | it :: rest, s =>
      let os := insertByte s.os it
      if hexdumpRowLen = s.bytesInRowCnt + 1 then
        hexDumpLoop msgLength rest
          ⟨{ os.coutEndl with basefield := .dec }, 0, s.msgBytesCnt + 1⟩
      -- `break`: the stream stays in hex
      else if s.msgBytesCnt + 1 = msgLength.toNat then
        ⟨os, s.bytesInRowCnt + 1, s.msgBytesCnt + 1⟩
      else
        hexDumpLoop msgLength rest
          ⟨{ os with basefield := .dec }, s.bytesInRowCnt + 1, s.msgBytesCnt + 1⟩

/-- `operator<<(std::ostream&, RadiusRawMsg&)`. -/
def hexDump (os : Ostream) (obj : RadiusRawMsg) : Ostream :=
  (hexDumpLoop obj.msgLength obj.radiusMsgData.bytes ⟨os, 0, 0⟩).os

/-! ## What the loop writes -/

/-- A byte as two hexadecimal digits. -/
def hexDigits (b : UInt8) : List Char :=
  [Nat.digitChar (b.toNat / 16), Nat.digitChar (b.toNat % 16)]

/-- Some bytes in order, each as `0x` and two hexadecimal digits. -/
def dumpOf (bytes : List UInt8) : List Char :=
  bytes.flatMap fun b => ['0', 'x'] ++ hexDigits b ++ [' ']

theorem length_dumpOf (bytes : List UInt8) : (dumpOf bytes).length = 5 * bytes.length := by
  induction bytes with
  | nil => rfl
  | cons b bs ih =>
      rw [dumpOf, List.flatMap_cons, List.length_append, ← dumpOf, ih]
      simp [hexDigits]
      omega

theorem toDigits_leftpad (b : UInt8) :
    (Nat.toDigits 16 (charToUInt16 b &&& 0xff).toNat).leftpad 2 '0' = hexDigits b := by
  have all : ∀ n < 256,
      (Nat.toDigits 16 (charToUInt16 (UInt8.ofNat n) &&& 0xff).toNat).leftpad 2 '0' =
        hexDigits (UInt8.ofNat n) := by
    decide +kernel
  simpa using all b.toNat b.toNat_lt

@[simp] theorem text_insertByte (os : Ostream) (b : UInt8) :
    (insertByte os b).text = os.text ++ dumpOf [b] := by
  have digits := toDigits_leftpad b
  simp only [insertByte, Ostream.insertNumber, Basefield.base, Ostream.text_insert, digits]
  simp [dumpOf, Ostream.text, Ostream.insert, Output.toOs]

theorem dumpOf_cons (b : UInt8) (bs : List UInt8) : dumpOf (b :: bs) = dumpOf [b] ++ dumpOf bs := by
  simp [dumpOf]

/-! One iteration, by what it finds after writing the byte. The counters of
`k` bytes written are `k % 16` and `k`. -/

section Iteration

variable {msgLength : UInt16} {b : UInt8} {bs : List UInt8} {os : Ostream} {k : ℕ}

theorem hexDumpLoop_row (row : (k + 1) % 16 = 0) :
    hexDumpLoop msgLength (b :: bs) ⟨os, k % 16, k⟩ =
      hexDumpLoop msgLength bs
        ⟨{ (insertByte os b).coutEndl with basefield := .dec }, (k + 1) % 16, k + 1⟩ := by
  have full : hexdumpRowLen = k % 16 + 1 := by rw [hexdumpRowLen_eq]; omega
  rw [hexDumpLoop, if_pos full, row]

theorem hexDumpLoop_break (inside : (k + 1) % 16 ≠ 0) (shown : k + 1 = msgLength.toNat) :
    hexDumpLoop msgLength (b :: bs) ⟨os, k % 16, k⟩ = ⟨insertByte os b, k % 16 + 1, k + 1⟩ := by
  have not_full : hexdumpRowLen ≠ k % 16 + 1 := by rw [hexdumpRowLen_eq]; omega
  rw [hexDumpLoop, if_neg not_full, if_pos shown]

theorem hexDumpLoop_next (inside : (k + 1) % 16 ≠ 0) (more : k + 1 ≠ msgLength.toNat) :
    hexDumpLoop msgLength (b :: bs) ⟨os, k % 16, k⟩ =
      hexDumpLoop msgLength bs
        ⟨{ insertByte os b with basefield := .dec }, (k + 1) % 16, k + 1⟩ := by
  have not_full : hexdumpRowLen ≠ k % 16 + 1 := by rw [hexdumpRowLen_eq]; omega
  have same_row : k % 16 + 1 = (k + 1) % 16 := by omega
  rw [hexDumpLoop, if_neg not_full, if_neg more, same_row]

end Iteration

/-- A length that ends a row is never compared with the counter. -/
theorem hexDumpLoop_text_of_dvd {msgLength : UInt16} (aligned : 16 ∣ msgLength.toNat)
    (bytes : List UInt8) (os : Ostream) (k : ℕ) :
    (hexDumpLoop msgLength bytes ⟨os, k % 16, k⟩).os.text = os.text ++ dumpOf bytes := by
  induction bytes generalizing os k with
  | nil => simp [hexDumpLoop, dumpOf]
  | cons b bs ih =>
      rw [dumpOf_cons, ← List.append_assoc]
      by_cases row : (k + 1) % 16 = 0
      · rw [hexDumpLoop_row row, ih]
        simp
      · rw [hexDumpLoop_next row (by omega), ih]
        simp

/-- Any other length stops the loop when that many bytes have been written. -/
theorem hexDumpLoop_text_of_not_dvd {msgLength : UInt16} (unaligned : ¬ 16 ∣ msgLength.toNat)
    (bytes : List UInt8) (os : Ostream) {k : ℕ} (ahead : k < msgLength.toNat) :
    (hexDumpLoop msgLength bytes ⟨os, k % 16, k⟩).os.text =
      os.text ++ dumpOf (bytes.take (msgLength.toNat - k)) := by
  induction bytes generalizing os k with
  | nil => simp [hexDumpLoop, dumpOf]
  | cons b bs ih =>
      by_cases row : (k + 1) % 16 = 0
      · obtain ⟨m, left⟩ : ∃ m, msgLength.toNat = k + 1 + (m + 1) :=
          ⟨msgLength.toNat - k - 2, by omega⟩
        rw [hexDumpLoop_row row, ih _ (by omega), left,
          show k + 1 + (m + 1) - k = m + 1 + 1 by omega, List.take_succ_cons, dumpOf_cons]
        simp
      · by_cases last : k + 1 = msgLength.toNat
        · rw [hexDumpLoop_break row last, ← last, Nat.add_sub_cancel_left]
          simp
        · obtain ⟨m, left⟩ : ∃ m, msgLength.toNat = k + 1 + (m + 1) :=
            ⟨msgLength.toNat - k - 2, by omega⟩
          rw [hexDumpLoop_next row last, ih _ (by omega), left,
            show k + 1 + (m + 1) - k = m + 1 + 1 by omega, List.take_succ_cons, dumpOf_cons]
          simp

/-- What the dump writes to `os`, for every length. -/
theorem text_hexDump (os : Ostream) (obj : RadiusRawMsg) :
    (hexDump os obj).text = os.text ++ dumpOf
      (if 16 ∣ obj.msgLength.toNat then obj.radiusMsgData.bytes
        else obj.radiusMsgData.bytes.take obj.msgLength.toNat) := by
  split
  · next aligned => exact hexDumpLoop_text_of_dvd aligned _ os 0
  · next unaligned =>
      have nonzero : 0 < obj.msgLength.toNat :=
        Nat.pos_of_ne_zero fun zero => unaligned (zero ▸ Nat.dvd_zero 16)
      exact hexDumpLoop_text_of_not_dvd unaligned _ os nonzero

/-- The dump shows exactly the message: the first bytes of the buffer, as many
as the length says. -/
def ShowsMessage (os : Ostream) (obj : RadiusRawMsg) : Prop :=
  (hexDump os obj).text = os.text ++ dumpOf (obj.radiusMsgData.bytes.take obj.msgLength.toNat)

/-- A length that ends a row and leaves a part of the buffer unused: the dump
shows that part as well. -/
theorem not_showsMessage_of_dvd {os : Ostream} {obj : RadiusRawMsg}
    (aligned : 16 ∣ obj.msgLength.toNat) (fits : obj.msgLength.toNat ≤ 4095) :
    ¬ ShowsMessage os obj := by
  intro shown
  rw [ShowsMessage, text_hexDump, if_pos aligned] at shown
  have lengths := congrArg List.length (List.append_cancel_left shown)
  rw [length_dumpOf, length_dumpOf, List.length_take, obj.radiusMsgData.size_eq,
    radiusMsgMaxSize_eq] at lengths
  omega

/-- The dump shows exactly the message unless the length is a multiple of the row length. -/
theorem showsMessage_iff (os : Ostream) (obj : RadiusRawMsg)
    (fits : obj.msgLength.toNat ≤ 4095) :
    ShowsMessage os obj ↔ ¬ hexdumpRowLen ∣ obj.msgLength.toNat := by
  rw [hexdumpRowLen_eq]
  constructor
  · intro shown aligned
    exact not_showsMessage_of_dvd aligned fits shown
  · intro unaligned
    rw [ShowsMessage, text_hexDump, if_neg unaligned]

/-- A message of 33 bytes is shown as it is. -/
theorem showsMessage_thirtyThree : ShowsMessage ⟨.dec, ' ', []⟩ ⟨.zero, .new, 33⟩ :=
  (showsMessage_iff ⟨.dec, ' ', []⟩ ⟨.zero, .new, 33⟩ (by decide)).mpr (by decide)

/-- A message of 32 bytes is not. -/
theorem not_showsMessage_thirtyTwo : ¬ ShowsMessage ⟨.dec, ' ', []⟩ ⟨.zero, .new, 32⟩ :=
  not_showsMessage_of_dvd (by decide) (by decide)

end RadiusEventHandler
