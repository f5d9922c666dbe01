import RadiusEventHandler.Split
import RadiusEventHandler.TextArchive

/-!
# What is logged (`operator<<` in `Utils.cpp`)

The text of a flow key and of a structure. `cout` prints numbers in decimal
wherever these operators are used. `inet_ntop` is a parameter; it gets the
address in network byte order, which is the same address.
-/

namespace RadiusEventHandler

def newline : UInt8 := 10

/-- A line and `endl`. -/
def line (text : StdString) : StdString := text ++ [newline]

/-! ## The operators -/

/-- `operator<<` for `FlowKeyType`. -/
def FlowKey.print (inetNtop : UInt32 → CString) (key : FlowKey) : StdString :=
  line (literal "FlowKey:") ++
  line (literal "         Server IP  : " ++ (inetNtop key.ipServer).bytes) ++
  line (literal "         Client IP  : " ++ (inetNtop key.ipClient).bytes) ++
  line (literal "         Server port: " ++ decimal key.portServer.toNat) ++
  line (literal "         Client port: " ++ decimal key.portClient.toNat) ++
  line (literal "         Identifier : " ++ decimal key.protoField.toNat)

/-- `operator<<` for `RadiusAvpType`. -/
def RadiusAvp.print (avp : RadiusAvp) : StdString :=
  line (literal "                       AVP: ") ++
  line (literal "                           Type: " ++ decimal avp.type.toNat) ++
  line (literal "                           Value:" ++ avp.value)

/-- The loop over a list, which ends a line more after each element. -/
def AvpList.print (avps : AvpList) : StdString := avps.flatMap fun avp => line avp.print

/-- `operator<<` for `PlainThriftStruct`. -/
def PlainThriftStruct.print (s : PlainThriftStruct) : StdString :=
  line (literal "Thrift: ") ++
  line (literal "        Time: " ++ decimal s.captureTimeStamp.toNat) ++
  line (literal "        ApplId: " ++ decimal s.applId.toNat) ++
  line (literal "        RequestMsgAvpsList: ") ++
  AvpList.print s.reqAvpList ++
  line (literal "        ResponseMsgAvpsList: ") ++
  AvpList.print s.respAvpList

/-- `operator<<` for `ThriftStruct`. -/
def ThriftStruct.print (t : ThriftStruct) : StdString :=
  line (literal "Thrift: ") ++
  line (literal "        Time: " ++ decimal t.captureTimeStamp.toNat) ++
  line (literal "        ApplId: " ++ decimal t.applId.toNat) ++
  line (literal "        RequestMsgAvpsList: ") ++
  (match t.reqAvpListPtr with
    | some avpListPtr => AvpList.print avpListPtr.avpList
    | none => []) ++
  line (literal "        ResponseMsgAvpsList: ") ++
  (match t.respAvpListPtr with
    | some avpListPtr => AvpList.print avpListPtr.avpList
    | none => [])

/-- A record is printed as the structure that is sent for it. -/
theorem ThriftStruct.print_eq (t : ThriftStruct) :
    t.print = (fillPlainThriftStructure t).print := by
  obtain ⟨captureTimeStamp, applId, _ | req, _ | resp, timer⟩ := t <;> rfl

/-! ## Lines -/

def unlines (lines : List StdString) : StdString := lines.flatMap line

theorem unlines_append (ls ms : List StdString) : unlines (ls ++ ms) = unlines ls ++ unlines ms :=
  List.flatMap_append

/-- Lines can be told apart when there are no newlines in them. -/
theorem unlines_inj {ls ms : List StdString} (free : ∀ l ∈ ls, newline ∉ l)
    (free' : ∀ l ∈ ms, newline ∉ l) (same : unlines ls = unlines ms) : ls = ms := by
  have fields : ∀ {ls : List StdString}, (∀ l ∈ ls, newline ∉ l) →
      Delimited.fields newline (unlines ls) = ls := by
    intro ls free
    induction ls with
    | nil => exact Delimited.fields_nil
    | cons l ls ih =>
        have rest := ih fun l mem => free l (List.mem_cons_of_mem _ mem)
        have text : unlines (l :: ls) = l ++ newline :: unlines ls := by
          simp [unlines, line]
        rw [text, Delimited.fields_append (free l List.mem_cons_self), rest]
  rw [← fields free, ← fields free', same]

theorem decimal_inj {n n' : ℕ} (same : decimal n = decimal n') : n = n' := by
  rw [← (TextArchive.decimal_digits n).2.2, same, (TextArchive.decimal_digits n').2.2]

theorem not_mem_decimal {c : UInt8} (no_digit : isdigit c = false) (n : ℕ) : c ∉ decimal n := by
  intro mem
  rw [(TextArchive.decimal_digits n).2.1 c mem] at no_digit
  cases no_digit

/-! ## Structures -/

/-- No value has a newline in it. -/
def AvpList.LineFree (avps : AvpList) : Prop := ∀ avp ∈ avps, newline ∉ avp.value

def PlainThriftStruct.LineFree (s : PlainThriftStruct) : Prop :=
  AvpList.LineFree s.reqAvpList ∧ AvpList.LineFree s.respAvpList

def RadiusAvp.lines (avp : RadiusAvp) : List StdString :=
  [literal "                       AVP: ",
    literal "                           Type: " ++ decimal avp.type.toNat,
    literal "                           Value:" ++ avp.value, []]

def PlainThriftStruct.lines (s : PlainThriftStruct) : List StdString :=
  [literal "Thrift: ", literal "        Time: " ++ decimal s.captureTimeStamp.toNat,
    literal "        ApplId: " ++ decimal s.applId.toNat,
    literal "        RequestMsgAvpsList: "] ++
  s.reqAvpList.flatMap RadiusAvp.lines ++
  literal "        ResponseMsgAvpsList: " :: s.respAvpList.flatMap RadiusAvp.lines

theorem AvpList.print_eq (avps : AvpList) :
    AvpList.print avps = unlines (avps.flatMap RadiusAvp.lines) := by
  induction avps with
  | nil => rfl
  | cons avp avps ih =>
      rw [List.flatMap_cons, unlines_append, ← ih]
      simp [AvpList.print, RadiusAvp.print, RadiusAvp.lines, unlines, line]

theorem PlainThriftStruct.print_eq (s : PlainThriftStruct) : s.print = unlines s.lines := by
  simp only [PlainThriftStruct.print, PlainThriftStruct.lines, AvpList.print_eq]
  simp [unlines]

theorem RadiusAvp.lines_free {avp : RadiusAvp} (free : newline ∉ avp.value) :
    ∀ l ∈ avp.lines, newline ∉ l := by
  have title : newline ∉ literal "                       AVP: " := by decide +kernel
  have type : newline ∉ literal "                           Type: " := by decide +kernel
  have value : newline ∉ literal "                           Value:" := by decide +kernel
  have number : newline ∉ decimal avp.type.toNat := not_mem_decimal (by decide) _
  intro l mem
  simp only [lines, List.mem_cons, List.not_mem_nil, or_false] at mem
  rcases mem with rfl | rfl | rfl | rfl
  · exact title
  · simp [type, number]
  · simp [value, free]
  · simp

theorem AvpList.lines_free {avps : AvpList} (free : AvpList.LineFree avps) :
    ∀ l ∈ avps.flatMap RadiusAvp.lines, newline ∉ l := by
  intro l mem
  obtain ⟨avp, among, mem⟩ := List.mem_flatMap.mp mem
  exact RadiusAvp.lines_free (free avp among) l mem

theorem PlainThriftStruct.lines_free {s : PlainThriftStruct} (free : s.LineFree) :
    ∀ l ∈ s.lines, newline ∉ l := by
  have title : newline ∉ literal "Thrift: " := by decide +kernel
  have time : newline ∉ literal "        Time: " := by decide +kernel
  have applId : newline ∉ literal "        ApplId: " := by decide +kernel
  have requests : newline ∉ literal "        RequestMsgAvpsList: " := by decide +kernel
  have responses : newline ∉ literal "        ResponseMsgAvpsList: " := by decide +kernel
  have number : ∀ n, newline ∉ decimal n := not_mem_decimal (by decide)
  intro l mem
  simp only [lines, List.mem_append, List.mem_cons, List.not_mem_nil, or_false] at mem
  rcases mem with ((rfl | rfl | rfl | rfl) | mem) | rfl | mem
  · exact title
  · simp [time, number]
  · simp [applId, number]
  · exact requests
  · exact AvpList.lines_free free.1 l mem
  · exact responses
  · exact AvpList.lines_free free.2 l mem

theorem RadiusAvp.lines_inj {avp avp' : RadiusAvp} (same : avp.lines = avp'.lines) :
    avp = avp' := by
  obtain ⟨type, value⟩ := avp
  obtain ⟨type', value'⟩ := avp'
  simp only [lines, List.cons.injEq, List.append_cancel_left_eq, true_and, and_true] at same
  obtain ⟨types, rfl⟩ := same
  rw [UInt8.toNat_inj.mp (decimal_inj types)]

/-- The lines of a list end where no attribute begins. -/
theorem AvpList.lines_inj {avps avps' : AvpList} {rest rest' : List StdString}
    (ends : rest.head? ≠ some (literal "                       AVP: "))
    (ends' : rest'.head? ≠ some (literal "                       AVP: "))
    (same : avps.flatMap RadiusAvp.lines ++ rest = avps'.flatMap RadiusAvp.lines ++ rest') :
    avps = avps' ∧ rest = rest' := by
  induction avps generalizing avps' with
  | nil =>
      cases avps' with
      | nil => exact ⟨rfl, same⟩
      | cons avp' avps' =>
          rw [List.flatMap_nil, List.nil_append] at same
          rw [same] at ends
          exact absurd rfl ends
  | cons avp avps ih =>
      cases avps' with
      | nil =>
          rw [List.flatMap_nil, List.nil_append] at same
          rw [← same] at ends'
          exact absurd rfl ends'
      | cons avp' avps' =>
          rw [List.flatMap_cons, List.flatMap_cons, List.append_assoc, List.append_assoc] at same
          obtain ⟨front, back⟩ := List.append_inj same rfl
          obtain ⟨rfl, rests⟩ := ih back
          rw [RadiusAvp.lines_inj front]
          exact ⟨rfl, rests⟩

theorem PlainThriftStruct.lines_inj {s t : PlainThriftStruct} (same : s.lines = t.lines) :
    s = t := by
  obtain ⟨time, applId, reqs, resps⟩ := s
  obtain ⟨time', applId', reqs', resps'⟩ := t
  have no_avp :
      literal "        ResponseMsgAvpsList: " ≠ literal "                       AVP: " := by
    decide +kernel
  simp only [lines, List.cons_append, List.nil_append, List.cons.injEq,
    List.append_cancel_left_eq, true_and] at same
  obtain ⟨times, applIds, lists⟩ := same
  obtain ⟨rfl, responses⟩ := AvpList.lines_inj (by simpa using no_avp) (by simpa using no_avp) lists
  have later : resps.flatMap RadiusAvp.lines ++ [] = resps'.flatMap RadiusAvp.lines ++ [] := by
    rw [List.append_nil, List.append_nil]
    exact (List.cons.inj responses).2
  obtain ⟨rfl, -⟩ := AvpList.lines_inj (by simp) (by simp) later
  rw [UInt64.toNat_inj.mp (decimal_inj times), UInt16.toNat_inj.mp (decimal_inj applIds)]

/-- Structures without newlines in their values are printed alike only if they
are the same. -/
theorem PlainThriftStruct.print_eq_iff {s t : PlainThriftStruct} (free : s.LineFree)
    (free' : t.LineFree) : s.print = t.print ↔ s = t := by
  constructor
  · intro same
    rw [print_eq, print_eq] at same
    exact lines_inj (unlines_inj (lines_free free) (lines_free free') same)
  · rintro rfl
    rfl

/-- A value with newlines looks like an attribute more. -/
example : PlainThriftStruct.print ⟨0, 0, [⟨1, literal "steve"⟩, ⟨2, literal "x"⟩], []⟩ =
    PlainThriftStruct.print ⟨0, 0, [⟨1, literal "steve\n\n                       AVP: \n" ++
      literal "                           Type: 2\n                           Value:x"⟩], []⟩ := by
  decide +kernel

/-! ## Flow keys -/

section FlowKeys

variable {inetNtop : UInt32 → CString}

def FlowKey.lines (inetNtop : UInt32 → CString) (key : FlowKey) : List StdString :=
  [literal "FlowKey:", literal "         Server IP  : " ++ (inetNtop key.ipServer).bytes,
    literal "         Client IP  : " ++ (inetNtop key.ipClient).bytes,
    literal "         Server port: " ++ decimal key.portServer.toNat,
    literal "         Client port: " ++ decimal key.portClient.toNat,
    literal "         Identifier : " ++ decimal key.protoField.toNat]

theorem FlowKey.print_eq (inetNtop : UInt32 → CString) (key : FlowKey) :
    key.print inetNtop = unlines (key.lines inetNtop) := by
  simp [FlowKey.print, FlowKey.lines, unlines]

theorem FlowKey.lines_free (free : ∀ addr, newline ∉ (inetNtop addr).bytes) (key : FlowKey) :
    ∀ l ∈ key.lines inetNtop, newline ∉ l := by
  have title : newline ∉ literal "FlowKey:" := by decide +kernel
  have ipServer : newline ∉ literal "         Server IP  : " := by decide +kernel
  have ipClient : newline ∉ literal "         Client IP  : " := by decide +kernel
  have portServer : newline ∉ literal "         Server port: " := by decide +kernel
  have portClient : newline ∉ literal "         Client port: " := by decide +kernel
  have identifier : newline ∉ literal "         Identifier : " := by decide +kernel
  have number : ∀ n, newline ∉ decimal n := not_mem_decimal (by decide)
  intro l mem
  simp only [lines, List.mem_cons, List.not_mem_nil, or_false] at mem
  rcases mem with rfl | rfl | rfl | rfl | rfl | rfl
  · exact title
  · simp [ipServer, free]
  · simp [ipClient, free]
  · simp [portServer, number]
  · simp [portClient, number]
  · simp [identifier, number]

/-- `inet_ntop` gives every address a text of its own, on one line. -/
theorem FlowKey.print_eq_iff (injective : Function.Injective inetNtop)
    (free : ∀ addr, newline ∉ (inetNtop addr).bytes) {x y : FlowKey} :
    x.print inetNtop = y.print inetNtop ↔ x = y := by
  constructor
  · intro same
    rw [print_eq, print_eq] at same
    have lines := unlines_inj (lines_free free x) (lines_free free y) same
    obtain ⟨a, b, c, d, e⟩ := x
    obtain ⟨a', b', c', d', e'⟩ := y
    simp only [FlowKey.lines, List.cons.injEq, List.append_cancel_left_eq, true_and, and_true]
      at lines
    obtain ⟨ips, ipc, ports, portc, ids⟩ := lines
    have text : ∀ {p q : CString}, p.bytes = q.bytes → p = q := by
      rintro ⟨p, _⟩ ⟨q, _⟩ rfl
      rfl
    rw [injective (text ips), injective (text ipc), UInt16.toNat_inj.mp (decimal_inj ports),
      UInt16.toNat_inj.mp (decimal_inj portc), UInt8.toNat_inj.mp (decimal_inj ids)]
  · rintro rfl
    rfl

/-- The four bytes of an address. -/
def octets (addr : UInt32) : List ℕ :=
  [addr.toNat / 16777216, addr.toNat / 65536 % 256, addr.toNat / 256 % 256, addr.toNat % 256]

theorem octets_inj {addr addr' : UInt32} (same : octets addr = octets addr') : addr = addr' := by
  simp only [octets, List.cons.injEq, and_true] at same
  apply UInt32.toNat_inj.mp
  omega

theorem mem_dotted {c : UInt8} {addr : UInt32}
    (mem : c ∈ [46].intercalate ((octets addr).map decimal)) : c = 46 ∨ isdigit c = true := by
  rcases Delimited.mem_intercalate mem with dot | ⟨part, among, mem⟩
  · exact .inl dot
  · obtain ⟨n, -, rfl⟩ := List.mem_map.mp among
    exact .inr ((TextArchive.decimal_digits n).2.1 c mem)

/-- `inet_ntop` for `AF_INET`: `ddd.ddd.ddd.ddd`. -/
def dottedDecimal (addr : UInt32) : CString where
  bytes := [46].intercalate ((octets addr).map decimal)
  nul_free := by
    intro mem
    rcases mem_dotted mem with dot | digit
    · cases dot
    · cases digit

theorem dottedDecimal_injective : Function.Injective dottedDecimal := by
  intro addr addr' same
  have parts : ∀ a, (dottedDecimal a).bytes.splitOn 46 = (octets a).map decimal := by
    intro a
    apply List.splitOn_intercalate
    · intro part mem dot
      obtain ⟨n, -, rfl⟩ := List.mem_map.mp mem
      exact not_mem_decimal (by decide) n dot
    · simp [octets]
  have octs : (octets addr).map decimal = (octets addr').map decimal := by
    rw [← parts, ← parts, same]
  exact octets_inj (List.map_injective_iff.mpr (fun _ _ => decimal_inj) octs)

theorem dottedDecimal_free (addr : UInt32) : newline ∉ (dottedDecimal addr).bytes := by
  intro mem
  rcases mem_dotted mem with dot | digit
  · cases dot
  · cases digit

end FlowKeys

/-- **What is logged can be read back.** A structure is shown completely if no
value has a newline in it, a record is shown as the structure that is sent for
it, and a flow key is shown completely. -/
theorem log_complete {inetNtop : UInt32 → CString} (injective : Function.Injective inetNtop)
    (free : ∀ addr, newline ∉ (inetNtop addr).bytes) :
    (∀ s t : PlainThriftStruct, s.LineFree → t.LineFree → (s.print = t.print ↔ s = t)) ∧
    (∀ t : ThriftStruct, t.print = (fillPlainThriftStructure t).print) ∧
    ∀ x y : FlowKey, x.print inetNtop = y.print inetNtop ↔ x = y :=
  ⟨fun _ _ free free' => PlainThriftStruct.print_eq_iff free free', ThriftStruct.print_eq,
    fun _ _ => FlowKey.print_eq_iff injective free⟩

theorem log_complete_dotted : archivedSession.LineFree ∧
    (archivedSession.print = { archivedSession with applId := 778 }.print ↔
      archivedSession = { archivedSession with applId := 778 }) ∧
    (∀ t : ThriftStruct, t.print = (fillPlainThriftStructure t).print) ∧
    ∀ x y : FlowKey, x.print dottedDecimal = y.print dottedDecimal ↔ x = y := by
  have line_free : archivedSession.LineFree := by
    refine ⟨?_, ?_⟩ <;> simp only [AvpList.LineFree] <;> decide +kernel
  obtain ⟨structures, records, keys⟩ := log_complete dottedDecimal_injective dottedDecimal_free
  exact ⟨line_free, structures _ _ line_free line_free, records, keys⟩

end RadiusEventHandler
