import RadiusEventHandler.Serialization
import RadiusEventHandler.Text

/-!
# The text archives

How the archives of the library write and read, as far as the templates use
them and as `archive.txt` shows it: a number behind a space, a string behind its
length, and the information on a class in front of its first object.
-/

namespace RadiusEventHandler

open Archiving

/-- The classes whose information is in the text. -/
abbrev Registry := List SerializedClass

def decimal (n : ℕ) : StdString := (Nat.toDigits 10 n).map Char.toUInt8

/-- The text does not continue a numeral. -/
def EndsNumeral (rest : List UInt8) : Prop := ∀ c, rest.head? = some c → isdigit c = false

/-! ## Writing -/

namespace TextArchive

def saveNumber (n : ℕ) : Saver Registry UInt8 ℕ := fun known => (n, known, 32 :: decimal n)

def saveText (v : StdString) : Saver Registry UInt8 StdString := fun known => (v, known, 32 :: v)

/-- Tracking and version of a class, once. -/
def saveClassInfo (class_ : SerializedClass) : Saver Registry UInt8 ℕ := fun known =>
  if class_ ∈ known then (0, known, [])
  else (do
    let _tracking ← saveNumber 0
    saveNumber 0) (class_ :: known)

def saveOperations : Archive (Saver Registry UInt8) where
  uint8 v := do
    let _ ← saveNumber v.toNat
    return v
  uint16 v := do
    let _ ← saveNumber v.toNat
    return v
  uint64 v := do
    let _ ← saveNumber v.toNat
    return v
  string v := do
    let _ ← saveNumber v.length
    saveText v
  vector _ item xs := do
    let _ ← saveNumber xs.length
    let _itemVersion ← saveNumber 0
    saveAll item xs
  object class_ serialize x := do
    let _version ← saveClassInfo class_
    serialize x


def textOarchive : TextOarchive Registry where
  header := literal "22 serialization::archive 10"
  initial := []
  operations := saveOperations
  footer := [10]

/-! ## Reading -/

def loadNumber : Loader Registry UInt8 ℕ := fun s =>
  (cLocale.read s.2).bind fun numeral =>
    if numeral.sign = .none then some (cLocale.ofDigits numeral.digits, s.1, numeral.rest)
    else none

def fail {α : Type} : Loader Registry UInt8 α := fun _ => none

/-- A number that there is room for. -/
def checked {α : Type} (size : ℕ) (ofNat : ℕ → α) (n : ℕ) : Loader Registry UInt8 α :=
  if n < size then pure (ofNat n) else fail

/-- The separator and as many bytes. -/
def loadText (length : ℕ) : Loader Registry UInt8 StdString := fun s =>
  if length < s.2.length then some (s.2.tail.take length, s.1, s.2.tail.drop length) else none

def loadClassInfo (class_ : SerializedClass) : Loader Registry UInt8 ℕ := fun s =>
  if class_ ∈ s.1 then some (0, s)
  else (do
    let _tracking ← loadNumber
    loadNumber) (class_ :: s.1, s.2)

def loadOperations : Archive (Loader Registry UInt8) where
  uint8 _ := do
    let n ← loadNumber
    checked UInt8.size UInt8.ofNat n
  uint16 _ := do
    let n ← loadNumber
    checked UInt16.size UInt16.ofNat n
  uint64 _ := do
    let n ← loadNumber
    checked UInt64.size UInt64.ofNat n
  string _ := do
    let length ← loadNumber
    loadText length
  vector new item _ := do
    let count ← loadNumber
    let _itemVersion ← loadNumber
    loadAll (item new) count
  object class_ serialize x := do
    let _version ← loadClassInfo class_
    serialize x

/-- The constructor: the signature of the library. -/
def openText (file : List UInt8) : Option (Registry × List UInt8) :=
  (file.dropPrefix? textOarchive.header).map fun rest => ([], rest)

def textIarchive : TextIarchive Registry where
  open? := openText
  operations := loadOperations

/-! ## What is read is what was written -/

theorem decimal_digits (n : ℕ) :
    decimal n ≠ [] ∧ (∀ c ∈ decimal n, isdigit c = true) ∧ cLocale.ofDigits (decimal n) = n := by
  have small : ∀ c ∈ Nat.toDigits 10 n, 48 ≤ c.toNat ∧ c.toNat ≤ 57 := by
    intro c mem
    have digit := Nat.isDigit_of_mem_toDigits (b := 10) (by omega) (by omega) mem
    simp only [Char.isDigit, Bool.and_eq_true, decide_eq_true_eq, ge_iff_le, UInt32.le_iff_toNat_le]
      at digit
    exact digit
  have byte : ∀ c ∈ Nat.toDigits 10 n, c.toUInt8.toNat = c.toNat := by
    intro c mem
    obtain ⟨-, high⟩ := small c mem
    have fits : c.toNat < 256 := Nat.lt_of_le_of_lt high (by decide)
    exact (UInt32.toNat_toUInt8 c.val).trans (Nat.mod_eq_of_lt fits)
  refine ⟨?_, ?_, ?_⟩
  · simp [decimal, Nat.toDigits_ne_nil]
  · intro c mem
    obtain ⟨d, among, rfl⟩ := List.mem_map.mp mem
    have range := small d among
    rw [← byte d among] at range
    simpa [isdigit] using range
  · rw [decimal, Numeral.Alphabet.ofDigits, List.foldl_map]
    calc (Nat.toDigits 10 n).foldl (fun m c => 10 * m + cLocale.value c.toUInt8) 0
        = Nat.ofDigitChars 10 (Nat.toDigits 10 n) 0 := by
          apply List.foldl_ext
          intro m c mem
          show 10 * m + (c.toUInt8.toNat - 48) = _
          rw [byte c mem]
          rfl
      _ = n := Nat.ofDigitChars_ten_toDigits

theorem endsNumeral_space (rest : List UInt8) : EndsNumeral (32 :: rest) := by
  intro c head
  cases head
  rfl

theorem restores_number (n : ℕ) :
    Restores EndsNumeral (saveNumber n) loadNumber n := by
  obtain ⟨ne, digits, value⟩ := decimal_digits n
  constructor
  · intro known
    rfl
  · intro known rest allowed
    have separator : ∀ c ∈ [(32 : UInt8)], cLocale.space c = true := by
      intro c mem
      rw [List.mem_singleton.mp mem]
      rfl
    have read : cLocale.read (32 :: decimal n ++ rest) = some ⟨.none, decimal n, rest⟩ :=
      Numeral.Alphabet.read_eq_some_iff.mpr ⟨[32], rfl, separator, ne, digits, allowed⟩
    show (cLocale.read (32 :: decimal n ++ rest)).bind _ = some (n, known, rest)
    rw [read, Option.bind_some, if_pos rfl, value]
  · intro known rest _
    exact endsNumeral_space _

theorem restores_checked {α : Type} {size : ℕ} (toNat : α → ℕ) {ofNat : ℕ → α}
    (inverse : ∀ v, ofNat (toNat v) = v) (fits : ∀ v, toNat v < size) (v : α) :
    Restores EndsNumeral (saveNumber (toNat v) >>= fun _ => pure v)
      (loadNumber >>= checked size ofNat) v := by
  have loaded : checked size ofNat (toNat v) = pure v := by
    rw [checked, if_pos (fits v), inverse v]
  apply (restores_number (toNat v)).bind
  rw [loaded]
  exact restores_pure v

theorem restores_text (v : StdString) :
    Restores EndsNumeral (saveText v) (loadText v.length) v := by
  constructor
  · intro known
    rfl
  · intro known rest _
    show loadText v.length (known, 32 :: (v ++ rest)) = some (v, known, rest)
    have room : v.length < (32 :: (v ++ rest)).length := by
      simp only [List.length_cons, List.length_append]
      omega
    rw [loadText, if_pos room]
    simp
  · intro known rest _
    exact endsNumeral_space _

theorem restores_classInfo (class_ : SerializedClass) :
    Restores EndsNumeral (saveClassInfo class_) (loadClassInfo class_) 0 := by
  have written : Restores EndsNumeral (saveNumber 0 >>= fun _ => saveNumber 0)
      (loadNumber >>= fun _ => loadNumber) 0 := (restores_number 0).bind (restores_number 0)
  constructor
  · intro known
    unfold saveClassInfo
    split
    · rfl
    · exact written.returns _
  · intro known rest allowed
    by_cases mem : class_ ∈ known
    · simp [saveClassInfo, loadClassInfo, mem]
    · simp only [saveClassInfo, loadClassInfo, if_neg mem]
      exact written.loads _ _ allowed
  · intro known rest allowed
    unfold saveClassInfo
    split
    · exact allowed
    · exact written.ends _ _ allowed

theorem textArchive_inverse :
    Archive.Inverse EndsNumeral saveOperations loadOperations where
  uint8 v _ := restores_checked UInt8.toNat (by simp) UInt8.toNat_lt v
  uint16 v _ := restores_checked UInt16.toNat (by simp) UInt16.toNat_lt v
  uint64 v _ := restores_checked UInt64.toNat (by simp) UInt64.toNat_lt v
  string v _ := (restores_number v.length).bind (restores_text v)
  vector new _ _ item xs _ :=
    (restores_number xs.length).bind
      ((restores_number 0).bind (restores_all (fun x => item x new) xs))
  object class_ _ _ serialize x x' := (restores_classInfo class_).bind (serialize x x')

theorem textArchive_reads : Reads EndsNumeral textOarchive textIarchive where
  opens rest _ := by
    have opened : (textOarchive.header ++ rest).dropPrefix? textOarchive.header = some rest :=
      List.dropPrefix?_append_of_beq rest (by simp)
    show ((textOarchive.header ++ rest).dropPrefix? _).map _ = _
    rw [opened]
    rfl
  inverse := textArchive_inverse
  nil := by
    intro c head
    cases head
  footer := by
    intro c head
    cases head
    rfl

end TextArchive

open TextArchive

/-- Two attributes of the request and one of the response in `archive.txt`. -/
def archivedSession : PlainThriftStruct where
  captureTimeStamp := 1499823252938
  applId := 777
  reqAvpList := [⟨1, literal "steve"⟩, ⟨6, [0, 0, 0, 2]⟩]
  respAvpList := [⟨1, literal "steve"⟩]

example : saveThrift textOarchive archivedSession =
    literal "22 serialization::archive 10 0 0 1499823252938 777 0 0 2 0 0 0 1 5 steve 6 4 " ++
      [0, 0, 0, 2] ++ literal " 1 0 1 5 steve\n" := by
  decide +kernel

theorem restoreThrift_saveThrift_session :
    restoreThrift textIarchive ⟨0, 0, [], []⟩ (sendBuf textOarchive archivedSession) =
      some (archivedSession, []) ∧
    restoreThrift textIarchive ⟨0, 0, [], []⟩ (saveThrift textOarchive archivedSession) =
      some (archivedSession, [10]) ∧
    ∀ t rest, EndsNumeral rest →
      sendBuf textOarchive t = sendBuf textOarchive archivedSession ++ rest →
      t = archivedSession ∧ rest = [] :=
  restoreThrift_saveThrift textArchive_reads archivedSession ⟨0, 0, [], []⟩

end RadiusEventHandler
