import RadiusEventHandler.AvpDecoding
import RadiusEventHandler.PacketReceiver

/-!
# What `getAllAvps` does on every admitted message

The bytes between header and message length decompose greedily into AVPs and
a rest from which no further AVP can be taken. The rest decides the call: an
empty rest is returned from, a rest with a length byte below two throws, and
any other rest is looked at forever. The decomposition is unique, so the three
outcomes are three disjoint sets of messages.
-/

namespace RadiusEventHandler

open Loop Scanner

/-! ## The greedy decomposition -/

/-- The last AVP of a non-empty list has a value. -/
def LastNonEmpty (avps : AvpList) : Prop := ∀ avp, avps.getLast? = some avp → avp.value ≠ []

instance (avps : AvpList) : Decidable (LastNonEmpty avps) :=
  inferInstanceAs (Decidable (∀ avp ∈ avps.getLast?, avp.value ≠ []))

/-- The bytes are these AVPs and a rest that the loop cannot take an AVP from. -/
structure Decomposes (bytes : List UInt8) (avps : AvpList) (rest : List UInt8) : Prop where
  bytes_eq : bytes = encodeAll avps ++ rest
  sized : WireSized avps
  ends : (rest = [] ∧ LastNonEmpty avps) ∨ TooShort rest ∨ Overrun rest ∨ BadLength rest

theorem encodeAll_eq_nil {avps : AvpList} : encodeAll avps = [] ↔ avps = [] := by
  cases avps with
  | nil => simp
  | cons avp avps => simp [RadiusAvp.encode]

theorem encodeAll_concat (avps : AvpList) (avp : RadiusAvp) :
    encodeAll (avps ++ [avp]) = encodeAll avps ++ avp.encode := by
  simp [encodeAll]

theorem lastNonEmpty_nil : LastNonEmpty [] := by
  intro avp h
  cases h

theorem lastNonEmpty_cons {avp : RadiusAvp} {avps : AvpList} :
    LastNonEmpty (avp :: avps) ↔ (avps = [] → avp.value ≠ []) ∧ LastNonEmpty avps := by
  cases avps with
  | nil => simp [LastNonEmpty]
  | cons next avps => simp [LastNonEmpty, List.getLast?_cons_cons]

theorem wireSized_cons {avp : RadiusAvp} {avps : AvpList} :
    WireSized (avp :: avps) ↔ avp.value.length ≤ 253 ∧ WireSized avps :=
  List.forall_mem_cons

/-- Scanning with `nextAvp` finds exactly the decomposition. -/
theorem scans_iff_decomposes {bytes rest : List UInt8} {avps : AvpList} :
    Scans nextAvp bytes avps rest ↔ Decomposes bytes avps rest := by
  constructor
  · intro scan
    induction scan with
    | stop stops =>
        refine ⟨rfl, List.forall_mem_nil _, ?_⟩
        rcases nextAvp_eq_none.mp stops with rfl | malformed
        · exact .inl ⟨rfl, lastNonEmpty_nil⟩
        · exact .inr malformed
    | more token _ ih =>
        obtain ⟨rfl, sized, three⟩ := nextAvp_eq_some token
        refine ⟨?_, wireSized_cons.mpr ⟨sized, ih.sized⟩, ?_⟩
        · rw [ih.bytes_eq, encodeAll_cons, List.append_assoc]
        · rcases ih.ends with ⟨rfl, last⟩ | malformed
          · refine .inl ⟨rfl, lastNonEmpty_cons.mpr ⟨?_, last⟩⟩
            rintro rfl
            rw [ih.bytes_eq] at three
            simpa using three
          · exact .inr malformed
  · rintro ⟨rfl, sized, ends⟩
    induction avps with
    | nil =>
        apply Scans.stop
        apply nextAvp_eq_none.mpr
        rcases ends with ⟨rfl, -⟩ | malformed
        · exact .inl rfl
        · exact .inr malformed
    | cons avp avps ih =>
        obtain ⟨small, sized⟩ := wireSized_cons.mp sized
        have shorter : rest = [] ∧ LastNonEmpty avps ∨
            TooShort rest ∨ Overrun rest ∨ BadLength rest := by
          rcases ends with ⟨nil, last⟩ | malformed
          · exact .inl ⟨nil, (lastNonEmpty_cons.mp last).2⟩
          · exact .inr malformed
        refine .more ?_ (ih sized shorter)
        rw [encodeAll_cons, List.append_assoc]
        apply nextAvp_encode small
        -- an AVP without a value is taken only when something follows it
        by_contra nothing
        push Not at nothing
        obtain ⟨noValue, noMore⟩ := nothing
        obtain ⟨noAvps, rfl⟩ := List.append_eq_nil_iff.mp noMore
        rcases ends with ⟨-, last⟩ | short | overrun | bad
        · exact (lastNonEmpty_cons.mp last).1 (encodeAll_eq_nil.mp noAvps) noValue
        · simp [TooShort] at short
        · simp [Overrun] at overrun
        · simp [BadLength] at bad

theorem exists_decomposes (bytes : List UInt8) : ∃ avps rest, Decomposes bytes avps rest := by
  obtain ⟨avps, rest, scan⟩ := exists_scan List.length nextAvp_smaller bytes
  exact ⟨avps, rest, scans_iff_decomposes.mp scan⟩

theorem Decomposes.unique {bytes rest rest' : List UInt8} {avps avps' : AvpList}
    (h : Decomposes bytes avps rest) (h' : Decomposes bytes avps' rest') :
    avps = avps' ∧ rest = rest' :=
  (scans_iff_decomposes.mpr h).unique (scans_iff_decomposes.mpr h')

/-! ## The loop follows the decomposition -/

theorem iterates_of_scans {data : RawDataArray} {len : UInt16} (le : len.toNat ≤ 4095)
    {bytes rest : List UInt8} {avps : AvpList} (scan : Scans nextAvp bytes avps rest)
    {s : AvpCursor} (window : data.window s.offset.toNat len.toNat = bytes) :
    ∃ t, Iterates (getAllAvpsCond len) (getAllAvpsBody data len) avps.length s t ∧
      t.avpList = s.avpList ++ avps ∧ data.window t.offset.toNat len.toNat = rest := by
  induction scan generalizing s with
  | stop _ => exact ⟨s, .done s, by simp, window⟩
  | more token _ ih =>
      rw [← window] at token
      obtain ⟨test, t, iteration, list, -, remaining⟩ := getAllAvps_body_step le token
      obtain ⟨u, rest, lists, left⟩ := ih remaining
      exact ⟨u, .again test iteration rest, by rw [lists, list]; simp, left⟩

theorem getAllAvps_unique {data : RawDataArray} {n m : ℕ} {r r' : Except CppError AvpList}
    (h : getAllAvps data n = some r) (h' : getAllAvps data m = some r') : r = r' := by
  unfold getAllAvps at h h'
  split at h
  · rename_i empty
    rw [if_pos empty] at h'
    exact Option.some.inj (h.symm.trans h')
  · rename_i avps
    rw [if_neg avps, Option.map_eq_some_iff] at h'
    obtain ⟨out, left, rfl⟩ := Option.map_eq_some_iff.mp h
    obtain ⟨out', left', rfl⟩ := h'
    rw [run_unique left left']

theorem GetAllAvpsReturns.not_throws {data : RawDataArray} {avps : AvpList} {e : CppError}
    (h : GetAllAvpsReturns data avps) : ¬ GetAllAvpsThrows data e := by
  obtain ⟨n, hn⟩ := h
  rintro ⟨m, hm⟩
  cases getAllAvps_unique hn hm

theorem GetAllAvpsReturns.unique {data : RawDataArray} {avps avps' : AvpList}
    (h : GetAllAvpsReturns data avps) (h' : GetAllAvpsReturns data avps') : avps = avps' := by
  obtain ⟨n, hn⟩ := h
  obtain ⟨m, hm⟩ := h'
  exact Except.ok.inj (getAllAvps_unique hn hm)

theorem GetAllAvpsThrows.unique {data : RawDataArray} {e e' : CppError}
    (h : GetAllAvpsThrows data e) (h' : GetAllAvpsThrows data e') : e = e' := by
  obtain ⟨n, hn⟩ := h
  obtain ⟨m, hm⟩ := h'
  exact Except.error.inj (getAllAvps_unique hn hm)

theorem GetAllAvpsHangs.not_returns {data : RawDataArray} {avps : AvpList}
    (h : GetAllAvpsHangs data) : ¬ GetAllAvpsReturns data avps := by
  rintro ⟨n, hn⟩
  rw [h n] at hn
  cases hn

theorem GetAllAvpsHangs.not_throws {data : RawDataArray} {e : CppError}
    (h : GetAllAvpsHangs data) : ¬ GetAllAvpsThrows data e := by
  rintro ⟨n, hn⟩
  rw [h n] at hn
  cases hn

section Outcomes

variable {data : RawDataArray} {avps : AvpList} {rest : List UInt8}

/-- The loop's outcome is the call's, when there is a loop to run. -/
theorem getAllAvps_of_loop (avpsPresent : data.lengthField.toNat ≠ radiusHeaderLen) {n : ℕ} :
    getAllAvps data n =
      (run (getAllAvpsCond data.lengthField) (getAllAvpsBody data data.lengthField) n
        .start).map (Except.map AvpCursor.avpList) := by
  rw [getAllAvps, if_neg avpsPresent]

theorem region_length (high : data.lengthField.toNat ≤ 4095) :
    data.region.length = data.lengthField.toNat - 20 :=
  data.window_length _ (Nat.le_succ_of_le high)

/-- Something is left over only of a message longer than its header. -/
theorem avpsPresent_of_rest (high : data.lengthField.toNat ≤ 4095)
    (decomposition : Decomposes data.region avps rest) (left : rest ≠ []) :
    data.lengthField.toNat ≠ radiusHeaderLen := by
  intro empty
  have length := region_length high
  have some := List.length_pos_iff.mpr left
  rw [decomposition.bytes_eq, empty, List.length_append, radiusHeaderLen_eq] at length
  omega

theorem reaches_rest (high : data.lengthField.toNat ≤ 4095)
    (decomposition : Decomposes data.region avps rest) :
    ∃ t, Iterates (getAllAvpsCond data.lengthField) (getAllAvpsBody data data.lengthField)
        avps.length .start t ∧
      t.avpList = avps ∧ data.window t.offset.toNat data.lengthField.toNat = rest := by
  obtain ⟨t, iterations, list, window⟩ := iterates_of_scans high
    (scans_iff_decomposes.mpr decomposition) (s := .start) rfl
  exact ⟨t, iterations, by simpa [AvpCursor.start] using list, window⟩

/-- An empty rest: the call returns, after one loop test more than there are AVPs. -/
theorem getAllAvps_returns (high : data.lengthField.toNat ≤ 4095)
    (decomposition : Decomposes data.region avps []) :
    getAllAvps data (avps.length + 1) = some (.ok avps) := by
  by_cases empty : data.lengthField.toNat = radiusHeaderLen
  · have length := region_length high
    rw [empty, decomposition.bytes_eq, List.append_nil, radiusHeaderLen_eq] at length
    have none : avps = [] := encodeAll_eq_nil.mp (List.length_eq_zero_iff.mp length)
    rw [getAllAvps, if_pos empty, none]
  · obtain ⟨t, iterations, list, window⟩ := reaches_rest high decomposition
    rw [getAllAvps_of_loop empty, iterations.run_add, run_exit (getAllAvps_cond_done high window)]
    simp [Except.map, list]

theorem getAllAvps_throws (high : data.lengthField.toNat ≤ 4095)
    (decomposition : Decomposes data.region avps rest) (bad : BadLength rest) :
    getAllAvps data (avps.length + 1) = some (.error .lengthError) := by
  have left : rest ≠ [] := by
    rintro rfl
    simp [BadLength] at bad
  obtain ⟨t, iterations, -, window⟩ := reaches_rest high decomposition
  rw [← window] at bad
  obtain ⟨test, raised⟩ := getAllAvps_body_badLength high bad
  rw [getAllAvps_of_loop (avpsPresent_of_rest high decomposition left), iterations.run_add,
    run_throw test raised]
  rfl

theorem getAllAvps_hangs (high : data.lengthField.toNat ≤ 4095)
    (decomposition : Decomposes data.region avps rest) (stuck : TooShort rest ∨ Overrun rest) :
    GetAllAvpsHangs data := by
  have left : rest ≠ [] := by
    rintro rfl
    simp [TooShort, Overrun] at stuck
  obtain ⟨t, iterations, -, window⟩ := reaches_rest high decomposition
  rw [← window] at stuck
  obtain ⟨test, same⟩ := getAllAvps_body_stuck high stuck
  intro n
  rw [getAllAvps_of_loop (avpsPresent_of_rest high decomposition left),
    iterations.diverges (diverges_of_repeat test same)]
  rfl

theorem getAllAvps_mono {n m : ℕ} {r : Except CppError AvpList}
    (left : getAllAvps data n = some r) (le : n ≤ m) : getAllAvps data m = some r := by
  unfold getAllAvps at left ⊢
  split at left
  · rename_i empty
    rwa [if_pos empty]
  · rename_i avpsPresent
    rw [if_neg avpsPresent]
    obtain ⟨outcome, loop, rfl⟩ := Option.map_eq_some_iff.mp left
    rw [run_mono loop le]
    rfl

/-- Every AVP has two bytes at least. -/
theorem length_le_encodeAll (avps : AvpList) : 2 * avps.length ≤ (encodeAll avps).length := by
  induction avps with
  | nil => exact Nat.le_refl 0
  | cons avp avps ih =>
      rw [encodeAll_cons, List.length_append, RadiusAvp.encode_length, List.length_cons]
      omega

/-- A call that is not over after as many loop tests as the buffer has bytes
never leaves its loop. -/
theorem getAllAvps_bufferSize (high : data.lengthField.toNat ≤ 4095) :
    getAllAvps data 4096 = none ↔ GetAllAvpsHangs data := by
  refine ⟨fun stays => ?_, fun hangs => hangs 4096⟩
  obtain ⟨avps, rest, decomposition⟩ := exists_decomposes data.region
  have length := region_length high
  rw [decomposition.bytes_eq, List.length_append] at length
  have few := length_le_encodeAll avps
  rcases decomposition.ends with ⟨rfl, -⟩ | short | overrun | bad
  · rw [getAllAvps_mono (getAllAvps_returns high decomposition) (by omega)] at stays
    cases stays
  · exact getAllAvps_hangs high decomposition (.inl short)
  · exact getAllAvps_hangs high decomposition (.inr overrun)
  · rw [getAllAvps_mono (getAllAvps_throws high decomposition bad) (by omega)] at stays
    cases stays

/-- The rest of the decomposition decides the call. -/
theorem exists_outcome (high : data.lengthField.toNat ≤ 4095) :
    ∃ avps rest, Decomposes data.region avps rest ∧
      ((rest = [] ∧ GetAllAvpsReturns data avps) ∨
        ((TooShort rest ∨ Overrun rest) ∧ GetAllAvpsHangs data) ∨
        (BadLength rest ∧ GetAllAvpsThrows data .lengthError)) := by
  obtain ⟨avps, rest, decomposition⟩ := exists_decomposes data.region
  refine ⟨avps, rest, decomposition, ?_⟩
  rcases decomposition.ends with ⟨rfl, -⟩ | short | overrun | bad
  · exact .inl ⟨rfl, _, getAllAvps_returns high decomposition⟩
  · exact .inr (.inl ⟨.inl short, getAllAvps_hangs high decomposition (.inl short)⟩)
  · exact .inr (.inl ⟨.inr overrun, getAllAvps_hangs high decomposition (.inr overrun)⟩)
  · exact .inr (.inr ⟨bad, _, getAllAvps_throws high decomposition bad⟩)

/-- **Returning**, read off the bytes. -/
theorem getAllAvpsReturns_iff (high : data.lengthField.toNat ≤ 4095) :
    GetAllAvpsReturns data avps ↔ Decomposes data.region avps [] := by
  constructor
  · intro returns
    obtain ⟨avps', rest, decomposition, ⟨rfl, returns'⟩ | ⟨-, hangs⟩ | ⟨-, throws⟩⟩ :=
      exists_outcome high
    · rw [returns.unique returns']
      exact decomposition
    · exact absurd returns hangs.not_returns
    · exact absurd throws returns.not_throws
  · exact fun decomposition => ⟨_, getAllAvps_returns high decomposition⟩

/-- **Throwing**, read off the bytes; nothing but `std::length_error` is thrown. -/
theorem getAllAvpsThrows_iff (high : data.lengthField.toNat ≤ 4095) {e : CppError} :
    GetAllAvpsThrows data e ↔
      e = .lengthError ∧ ∃ avps rest, Decomposes data.region avps rest ∧ BadLength rest := by
  constructor
  · intro throws
    obtain ⟨avps, rest, decomposition, ⟨-, returns⟩ | ⟨-, hangs⟩ | ⟨bad, throws'⟩⟩ :=
      exists_outcome high
    · exact absurd throws returns.not_throws
    · exact absurd throws hangs.not_throws
    · exact ⟨throws.unique throws', avps, rest, decomposition, bad⟩
  · rintro ⟨rfl, avps, rest, decomposition, bad⟩
    exact ⟨_, getAllAvps_throws high decomposition bad⟩

/-- **Hanging**, read off the bytes. -/
theorem getAllAvpsHangs_iff (high : data.lengthField.toNat ≤ 4095) :
    GetAllAvpsHangs data ↔
      ∃ avps rest, Decomposes data.region avps rest ∧ (TooShort rest ∨ Overrun rest) := by
  constructor
  · intro hangs
    obtain ⟨avps, rest, decomposition, ⟨-, returns⟩ | ⟨stuck, -⟩ | ⟨-, throws⟩⟩ :=
      exists_outcome high
    · exact absurd returns hangs.not_returns
    · exact ⟨avps, rest, decomposition, stuck⟩
    · exact absurd throws hangs.not_throws
  · rintro ⟨avps, rest, decomposition, stuck⟩
    exact getAllAvps_hangs high decomposition stuck

end Outcomes

/-! ## The cursor -/

/-- The 16-bit offset is the true position behind the AVPs taken so far. -/
theorem cursor_offset {data : RawDataArray} (low : 20 ≤ data.lengthField.toNat)
    (high : data.lengthField.toNat ≤ 4095) {k : ℕ} {s : AvpCursor}
    (reached : Iterates (getAllAvpsCond data.lengthField) (getAllAvpsBody data data.lengthField)
      k .start s) :
    s.offset.toNat = 20 + (encodeAll s.avpList).length ∧
      s.offset.toNat ≤ data.lengthField.toNat := by
  -- an iteration moves the offset by the length of the AVP it takes
  refine reached.invariant (I := fun s => s.offset.toNat = 20 + (encodeAll s.avpList).length ∧
    s.offset.toNat ≤ data.lengthField.toNat) ?_ ⟨rfl, low⟩
  rintro s t ⟨offset, within⟩ test iteration
  cases token : nextAvp (data.window s.offset.toNat data.lengthField.toNat) with
  | some found =>
      obtain ⟨avp, rest⟩ := found
      obtain ⟨-, u, iteration', list, moved, -⟩ := getAllAvps_body_step high token
      rw [iteration] at iteration'
      cases iteration'
      obtain ⟨bytes, -, -⟩ := nextAvp_eq_some token
      have length := window_offset_length data s high
      rw [bytes, List.length_append, RadiusAvp.encode_length] at length
      rw [list, encodeAll_concat, List.length_append, RadiusAvp.encode_length]
      omega
  | none =>
      rcases nextAvp_eq_none.mp token with done | short | overrun | bad
      · rw [getAllAvps_cond_done high done] at test
        cases test
      · rw [(getAllAvps_body_stuck high (.inl short)).2] at iteration
        cases iteration
        exact ⟨offset, within⟩
      · rw [(getAllAvps_body_stuck high (.inr overrun)).2] at iteration
        cases iteration
        exact ⟨offset, within⟩
      · rw [(getAllAvps_body_badLength high bad).2] at iteration
        cases iteration

/-! ## The three languages -/

/-- **Complete classification of AVP decoding.** A message is returned from
when its bytes are AVPs, the last one with a value; it throws when AVPs are
followed by a length byte below two; it hangs when AVPs are followed by one or
two bytes or by a length byte that exceeds what is left. The cases exclude
each other and there is no other; the decomposition is unique, nothing but
`std::length_error` is thrown, and the offset never wraps. -/
theorem getAllAvps_classification (data : RawDataArray) (low : 20 ≤ data.lengthField.toNat)
    (high : data.lengthField.toNat ≤ 4095) :
    (∀ avps, GetAllAvpsReturns data avps ↔
      WireSized avps ∧ data.region = encodeAll avps ∧ LastNonEmpty avps) ∧
    (GetAllAvpsThrows data .lengthError ↔
      ∃ avps rest, WireSized avps ∧ data.region = encodeAll avps ++ rest ∧ BadLength rest) ∧
    (GetAllAvpsHangs data ↔
      ∃ avps rest, WireSized avps ∧ data.region = encodeAll avps ++ rest ∧
        (TooShort rest ∨ Overrun rest)) ∧
    ((∃ avps, GetAllAvpsReturns data avps) ∨ GetAllAvpsThrows data .lengthError ∨
      GetAllAvpsHangs data) ∧
    (∀ avps, GetAllAvpsReturns data avps →
      ¬ GetAllAvpsThrows data .lengthError ∧ ¬ GetAllAvpsHangs data) ∧
    (GetAllAvpsThrows data .lengthError → ¬ GetAllAvpsHangs data) ∧
    (∀ e, GetAllAvpsThrows data e → e = .lengthError) ∧
    (∀ k s, Iterates (getAllAvpsCond data.lengthField) (getAllAvpsBody data data.lengthField)
        k .start s →
      s.offset.toNat = 20 + (encodeAll s.avpList).length ∧
        s.offset.toNat ≤ data.lengthField.toNat) ∧
    (∀ avps rest avps' rest', Decomposes data.region avps rest →
      Decomposes data.region avps' rest' → avps = avps' ∧ rest = rest') := by
  refine ⟨?_, ?_, ?_, ?_, ?_, ?_, ?_, ?_, ?_⟩
  · intro avps
    rw [getAllAvpsReturns_iff high]
    constructor
    · rintro ⟨bytes, sized, ⟨-, last⟩ | malformed⟩
      · exact ⟨sized, by simpa using bytes, last⟩
      · simp [TooShort, Overrun, BadLength] at malformed
    · rintro ⟨sized, bytes, last⟩
      exact ⟨by simpa using bytes, sized, .inl ⟨rfl, last⟩⟩
  · rw [getAllAvpsThrows_iff high]
    constructor
    · rintro ⟨-, avps, rest, decomposition, bad⟩
      exact ⟨avps, rest, decomposition.sized, decomposition.bytes_eq, bad⟩
    · rintro ⟨avps, rest, sized, bytes, bad⟩
      exact ⟨rfl, avps, rest, ⟨bytes, sized, .inr (.inr (.inr bad))⟩, bad⟩
  · rw [getAllAvpsHangs_iff high]
    constructor
    · rintro ⟨avps, rest, decomposition, stuck⟩
      exact ⟨avps, rest, decomposition.sized, decomposition.bytes_eq, stuck⟩
    · rintro ⟨avps, rest, sized, bytes, short | overrun⟩
      · exact ⟨avps, rest, ⟨bytes, sized, .inr (.inl short)⟩, .inl short⟩
      · exact ⟨avps, rest, ⟨bytes, sized, .inr (.inr (.inl overrun))⟩, .inr overrun⟩
  · obtain ⟨avps, -, -, ⟨-, returns⟩ | ⟨-, hangs⟩ | ⟨-, throws⟩⟩ := exists_outcome high
    · exact .inl ⟨avps, returns⟩
    · exact .inr (.inr hangs)
    · exact .inr (.inl throws)
  · exact fun avps returns => ⟨returns.not_throws, fun hangs => hangs.not_returns returns⟩
  · exact fun throws hangs => hangs.not_throws throws
  · exact fun e throws => ((getAllAvpsThrows_iff high).mp throws).1
  · exact fun k s reached => cursor_offset low high reached
  · exact fun avps rest avps' rest' h h' => h.unique h'

/-- A message that is one AVP of three bytes. -/
def singleAvpData : RawDataArray :=
  RawDataArray.zero.receive ([4, 103, 0, 23] ++ List.replicate 16 0 ++ [1, 3, 115])

theorem getAllAvps_classification_singleAvp :
    (20 ≤ singleAvpData.lengthField.toNat ∧ singleAvpData.lengthField.toNat ≤ 4095) ∧
    (GetAllAvpsReturns singleAvpData [⟨1, [115]⟩] ↔
      WireSized [⟨1, [115]⟩] ∧ singleAvpData.region = encodeAll [⟨1, [115]⟩] ∧
        LastNonEmpty [⟨1, [115]⟩]) ∧
    (GetAllAvpsThrows singleAvpData .lengthError ↔
      ∃ avps rest, WireSized avps ∧ singleAvpData.region = encodeAll avps ++ rest ∧
        BadLength rest) ∧
    (GetAllAvpsHangs singleAvpData ↔
      ∃ avps rest, WireSized avps ∧ singleAvpData.region = encodeAll avps ++ rest ∧
        (TooShort rest ∨ Overrun rest)) ∧
    ((∃ avps, GetAllAvpsReturns singleAvpData avps) ∨
      GetAllAvpsThrows singleAvpData .lengthError ∨ GetAllAvpsHangs singleAvpData) ∧
    ¬ GetAllAvpsThrows singleAvpData .lengthError ∧ ¬ GetAllAvpsHangs singleAvpData ∧
    (GetAllAvpsThrows singleAvpData .lengthError → ¬ GetAllAvpsHangs singleAvpData) ∧
    (∀ e, GetAllAvpsThrows singleAvpData e → e = .lengthError) ∧
    (∀ k s, Iterates (getAllAvpsCond singleAvpData.lengthField)
        (getAllAvpsBody singleAvpData singleAvpData.lengthField) k .start s →
      s.offset.toNat = 20 + (encodeAll s.avpList).length ∧
        s.offset.toNat ≤ singleAvpData.lengthField.toNat) ∧
    ∀ avps rest, Decomposes singleAvpData.region avps rest → avps = [⟨1, [115]⟩] ∧ rest = [] := by
  have low : 20 ≤ singleAvpData.lengthField.toNat := by decide +kernel
  have high : singleAvpData.lengthField.toNat ≤ 4095 := by decide +kernel
  have sized : WireSized [⟨1, [115]⟩] := by decide +kernel
  have bytes : singleAvpData.region = encodeAll [⟨1, [115]⟩] := by decide +kernel
  have last : LastNonEmpty [⟨1, [115]⟩] := by decide +kernel
  obtain ⟨returns, throws, hangs, outcome, excludes, excludes', exception, offset, unique⟩ :=
    getAllAvps_classification singleAvpData low high
  obtain ⟨not_throws, not_hangs⟩ := excludes _ ((returns _).mpr ⟨sized, bytes, last⟩)
  have whole : Decomposes singleAvpData.region [⟨1, [115]⟩] [] :=
    ⟨by simpa using bytes, sized, .inl ⟨rfl, last⟩⟩
  exact ⟨⟨low, high⟩, returns _, throws, hangs, outcome, not_throws, not_hangs, excludes',
    exception, offset, fun avps rest decomposition => unique avps rest _ _ decomposition whole⟩

/-! ## Admitted datagrams -/

/-- The message a datagram is received into: a new buffer, zero behind the datagram. -/
def RadiusRawMsg.received (datagram : List UInt8) : RadiusRawMsg :=
  { RadiusRawMsg.new with radiusMsgData := RawDataArray.zero.receive datagram }

/-- **Which admitted datagrams the loop is left on**: all but those whose AVPs
are followed by one or two bytes, or by a length byte exceeding what is left.
Neither guard of the loop has an `else`, so on those the offset stands still. -/
theorem getAllAvps_leaves_loop_iff (datagram : List UInt8) (rEndpoint lEndpoint : Endpoint)
    (admitted : isRadAccMsg (.received datagram) rEndpoint lEndpoint datagram.length = true) :
    (∃ fuel outcome,
        getAllAvps (RadiusRawMsg.received datagram).radiusMsgData fuel = some outcome) ↔
      ¬ ∃ avps rest, WireSized avps ∧
        (RadiusRawMsg.received datagram).radiusMsgData.region = encodeAll avps ++ rest ∧
        (TooShort rest ∨ Overrun rest) := by
  obtain ⟨⟨low, high⟩, -⟩ := isRadAccMsg_iff.mp admitted
  obtain ⟨-, -, hangs, -⟩ := getAllAvps_classification _ low high
  rw [← hangs, GetAllAvpsHangs, not_forall]
  simp only [Option.ne_none_iff_exists']

/-- A datagram with one byte behind its header. -/
def trailingByteDatagram : List UInt8 := [4, 103, 0, 21] ++ List.replicate 16 0 ++ [1]

def radiusClient : Endpoint := ⟨0x7f000001, 1813⟩

def radiusMonitor : Endpoint := ⟨0x7f000001, 30001⟩

theorem trailingByte_never_leaves_loop :
    isRadAccMsg (.received trailingByteDatagram) radiusClient radiusMonitor
      trailingByteDatagram.length = true ∧
    ¬ ∃ fuel outcome,
      getAllAvps (RadiusRawMsg.received trailingByteDatagram).radiusMsgData fuel =
        some outcome := by
  have admitted : isRadAccMsg (.received trailingByteDatagram) radiusClient radiusMonitor
      trailingByteDatagram.length = true := by decide +kernel
  obtain ⟨⟨low, high⟩, -⟩ := isRadAccMsg_iff.mp admitted
  have decomposition :
      Decomposes (RadiusRawMsg.received trailingByteDatagram).radiusMsgData.region [] [1] :=
    ⟨by decide +kernel, List.forall_mem_nil _, .inr (.inl (.inl rfl))⟩
  have hangs := getAllAvps_hangs high decomposition (.inl (.inl rfl))
  refine ⟨admitted, ?_⟩
  rintro ⟨fuel, outcome, left⟩
  rw [hangs fuel] at left
  cases left

theorem getAllAvps_leaves_loop_trailingByte :
    (∃ fuel outcome,
        getAllAvps (RadiusRawMsg.received trailingByteDatagram).radiusMsgData fuel =
          some outcome) ↔
      ¬ ∃ avps rest, WireSized avps ∧
        (RadiusRawMsg.received trailingByteDatagram).radiusMsgData.region =
          encodeAll avps ++ rest ∧
        (TooShort rest ∨ Overrun rest) :=
  getAllAvps_leaves_loop_iff trailingByteDatagram radiusClient radiusMonitor (by decide +kernel)

/-- No iteration hands `string::assign` a negative count, and no
`std::length_error` leaves the call. -/
def AssignCountsNonNegative (data : RawDataArray) : Prop :=
  (∀ k s, Iterates (getAllAvpsCond data.lengthField) (getAllAvpsBody data data.lengthField)
      k .start s →
    s.offset.toNat + radAccAvpTypelenLen < data.lengthField.toNat →
    s.offset.toNat + (data.get (s.offset.toNat + radAccAvpTypeLen)).toNat ≤
      data.lengthField.toNat →
    0 ≤ ((data.get (s.offset.toNat + radAccAvpTypeLen)).toNat : ℤ) - radAccAvpTypelenLen) ∧
  ¬ GetAllAvpsThrows data .lengthError

/-- A negative count is a length byte below two at a reached offset. -/
theorem badLength_of_negative {data : RawDataArray} {s : AvpCursor}
    (high : data.lengthField.toNat ≤ 4095)
    (long : s.offset.toNat + 2 < data.lengthField.toNat)
    (negative : (data.get (s.offset.toNat + 1)).toNat < 2) :
    BadLength (data.window s.offset.toNat data.lengthField.toNat) := by
  refine ⟨?_, by rwa [window_second long high]⟩
  rw [window_offset_length data s high]
  omega

theorem throws_of_negative {data : RawDataArray} (high : data.lengthField.toNat ≤ 4095)
    {k : ℕ} {s : AvpCursor}
    (reached : Iterates (getAllAvpsCond data.lengthField) (getAllAvpsBody data data.lengthField)
      k .start s)
    (bad : BadLength (data.window s.offset.toNat data.lengthField.toNat))
    (avpsPresent : data.lengthField.toNat ≠ radiusHeaderLen) :
    GetAllAvpsThrows data .lengthError := by
  obtain ⟨test, raised⟩ := getAllAvps_body_badLength high bad
  refine ⟨k + 1, ?_⟩
  rw [getAllAvps_of_loop avpsPresent, reached.run_add, run_throw test raised]
  rfl

/-- **On which admitted datagrams no count is negative**: all but those whose
AVPs are followed by a length byte below two, with a third byte behind it. -/
theorem assignCounts_nonNegative_iff (datagram : List UInt8) (rEndpoint lEndpoint : Endpoint)
    (admitted : isRadAccMsg (.received datagram) rEndpoint lEndpoint datagram.length = true) :
    AssignCountsNonNegative (RadiusRawMsg.received datagram).radiusMsgData ↔
      ¬ ∃ avps rest, WireSized avps ∧
        (RadiusRawMsg.received datagram).radiusMsgData.region = encodeAll avps ++ rest ∧
        BadLength rest := by
  obtain ⟨⟨low, high⟩, -⟩ := isRadAccMsg_iff.mp admitted
  obtain ⟨-, throws, -⟩ := getAllAvps_classification _ low high
  rw [← throws]
  constructor
  · exact And.right
  · intro quiet
    refine ⟨fun k s reached long fits => ?_, quiet⟩
    simp only [radAccAvpTypelenLen_eq, radAccAvpTypeLen_eq, Nat.cast_ofNat] at long fits ⊢
    -- a negative count at a reached offset would throw
    by_contra negative
    apply quiet
    apply throws_of_negative high reached (badLength_of_negative high long (by omega))
    obtain ⟨offset, -⟩ := cursor_offset low high reached
    rw [radiusHeaderLen_eq]
    omega

/-- A datagram whose first AVP has length byte one. -/
def shortLengthDatagram : List UInt8 := [4, 103, 0, 23] ++ List.replicate 16 0 ++ [1, 1, 0]

theorem shortLength_throws :
    isRadAccMsg (.received shortLengthDatagram) radiusClient radiusMonitor
      shortLengthDatagram.length = true ∧
    ¬ AssignCountsNonNegative (RadiusRawMsg.received shortLengthDatagram).radiusMsgData := by
  have admitted : isRadAccMsg (.received shortLengthDatagram) radiusClient radiusMonitor
      shortLengthDatagram.length = true := by decide +kernel
  obtain ⟨⟨low, high⟩, -⟩ := isRadAccMsg_iff.mp admitted
  have bad : BadLength [1, 1, 0] := ⟨by decide, by decide⟩
  have decomposition :
      Decomposes (RadiusRawMsg.received shortLengthDatagram).radiusMsgData.region [] [1, 1, 0] :=
    ⟨by decide +kernel, List.forall_mem_nil _, .inr (.inr (.inr bad))⟩
  have throws := getAllAvps_throws high decomposition bad
  exact ⟨admitted, fun h => h.2 ⟨_, throws⟩⟩

theorem assignCounts_nonNegative_shortLength :
    AssignCountsNonNegative (RadiusRawMsg.received shortLengthDatagram).radiusMsgData ↔
      ¬ ∃ avps rest, WireSized avps ∧
        (RadiusRawMsg.received shortLengthDatagram).radiusMsgData.region =
          encodeAll avps ++ rest ∧
        BadLength rest :=
  assignCounts_nonNegative_iff shortLengthDatagram radiusClient radiusMonitor (by decide +kernel)

end RadiusEventHandler
