import RadiusEventHandler.MessageSteps

/-!
# What has been sent (`ThriftSender.cpp`)

While no timer expires, the sender sends the records that were pushed, in
their order, each with the lists it was pushed with: a record that has left
the table is not written to any more but for its time stamp and application
id.
-/

namespace RadiusEventHandler

/-- The two lists of a structure that is sent. -/
def PlainThriftStruct.lists (plain : PlainThriftStruct) : AvpList × AvpList :=
  (plain.reqAvpList, plain.respAvpList)

/-- A list that is not set is sent as an empty one. -/
def plainLists (lists : Lists) : AvpList × AvpList :=
  (lists.1.elim [] AvpListPtr.avpList, lists.2.elim [] AvpListPtr.avpList)

theorem fillPlainThriftStructure_lists (thrift : ThriftStruct) :
    (fillPlainThriftStructure thrift).lists = plainLists thrift.lists := by
  obtain ⟨captureTimeStamp, applId, _ | req, _ | resp, timer⟩ := thrift <;> rfl

namespace Shared

/-- The pushed records are those that were sent, with the lists they still
have, and then those in the output queue. -/
def Sent (s : Shared) : Prop :=
  ∃ sent waits, s.pushed = sent ++ waits ∧ s.outputQueue.items = waits.map some ∧
    s.plainStructs.map PlainThriftStruct.lists =
      sent.map fun r => plainLists (s.thriftStructs r).lists

variable {s s' : Shared} {msg : DecodedMsg}

theorem sent_init (capacity : ℕ) : (init capacity).Sent := ⟨[], [], rfl, rfl, rfl⟩

/-- A step that changes no list of a pushed record and pushes nothing. -/
theorem Sent.congr {u : Shared} (sent : s.Sent)
    (lists : ∀ r ∈ s.pushed, (u.thriftStructs r).lists = (s.thriftStructs r).lists)
    (pushed : u.pushed = s.pushed) (outputQueue : u.outputQueue = s.outputQueue)
    (plainStructs : u.plainStructs = s.plainStructs) : u.Sent := by
  obtain ⟨done, waits, split, items, plain⟩ := sent
  refine ⟨done, waits, by rw [pushed, split], by rw [outputQueue, items], ?_⟩
  rw [plainStructs, plain]
  apply List.map_congr_left
  intro r mem
  have before : r ∈ s.pushed := by
    rw [split]
    exact List.mem_append_left _ mem
  rw [lists r before]

theorem Sent.handleRadiusMessage (sent : s.Sent) (inv : s.Inv nobody)
    (room : ¬ s.outputQueue.Full) (step : s.handleRadiusMessage msg = some s') : s'.Sent := by
  rcases handleRadiusMessage_cases step with ⟨r, found, rfl⟩ | ⟨-, rfl⟩
  · obtain ⟨done, waits, split, items, plain⟩ := sent
    obtain ⟨q, push, -, items'⟩ := BoundedQueue.tryPush_of_not_full (some r) room
    have pushed : ((s.take msg).hit msg r).pushed = s.pushed ++ [r] := by
      rw [hit_eq]
      exact if_neg room
    have queue : ((s.take msg).hit msg r).outputQueue = q := by
      rw [hit_eq]
      simp [take, push]
    refine ⟨done, waits ++ [r], by rw [pushed, split, List.append_assoc],
      by rw [queue, items', items, List.map_append, List.map_singleton], ?_⟩
    -- the record that was sent is not the one in the table
    have others : ∀ r' ∈ done, ((s.take msg).hit msg r).thriftStructs r' = s.thriftStructs r' := by
      intro r' mem
      have before : r' ∈ s.pushed := by
        rw [split]
        exact List.mem_append_left _ mem
      rw [hit_eq]
      exact Function.update_of_ne ((inv.pushed r' before).1.ne found) _ _
    rw [(handleRadiusMessage_frame step).2.2, plain]
    apply List.map_congr_left
    intro r' mem
    rw [others r' mem]
  · refine sent.congr (fun r mem => ?_) ?_ ?_ ?_ <;> rw [store_eq] <;> try rfl
    obtain ⟨key, stored⟩ := (inv.pushed r mem).1.stored
    rw [create_eq]
    simp [take, Nat.ne_of_lt (inv.stored_lt r key stored)]

/-- The sender takes the record in front, and no null pointer. -/
theorem send_front {waits : List RecordId} {applId : UInt16} {now : UInt64} {sendThrows : Bool}
    (items : s.outputQueue.items = waits.map some)
    (step : s.sendThriftStructure applId now sendThrows = some s') :
    ∃ r rest thrift, waits = r :: rest ∧ s'.outputQueue.items = rest.map some ∧
      s'.pushed = s.pushed ∧ thrift.lists = (s.thriftStructs r).lists ∧
      s'.plainStructs = s.plainStructs ++ [fillPlainThriftStructure thrift] := by
  unfold sendThriftStructure at step
  split at step
  · cases step
  · rename_i q pop
    have front := (BoundedQueue.tryPop_eq_some.mp pop).2
    rw [items] at front
    obtain ⟨r, rest, -, null, -⟩ := List.map_eq_cons_iff.mp front
    cases null
  · rename_i r q pop
    have front := (BoundedQueue.tryPop_eq_some.mp pop).2
    rw [items] at front
    obtain ⟨r', rest, rfl, same, left⟩ := List.map_eq_cons_iff.mp front
    cases same
    cases step
    exact ⟨r, rest, ((s.thriftStructs r).setApplId applId).setTimeStamp now, rfl, left.symm, rfl,
      rfl, rfl⟩

theorem Sent.envStep {e : EnvAction} (sent : s.Sent) (quiet : s.Quiet)
    (notExpire : e.isExpire = false) (step : s.envStep e = some s') : s'.Sent := by
  have lists := (quiet.envStep notExpire step).2.2.2.2.2
  cases e with
  | expire r => cases notExpire
  | runHandler r =>
      obtain ⟨key, ⟨wait, -⟩ | ⟨-, rfl⟩⟩ := runHandler_cases step
      · exact absurd wait (quiet r key)
      · exact sent.congr (fun r _ => lists r) rfl rfl rfl
  | send applId now sendThrows =>
      obtain ⟨done, waits, split, items, plain⟩ := sent
      obtain ⟨r, rest, thrift, rfl, items', pushed, same, plain'⟩ := send_front items step
      have kept : ∀ r', plainLists (s'.thriftStructs r').lists =
          plainLists (s.thriftStructs r').lists := fun r' => by rw [lists r']
      refine ⟨done ++ [r], rest, ?_, items', ?_⟩
      · rw [pushed, split, List.append_assoc]
        rfl
      · simp only [kept, plain', List.map_append, plain, List.map_singleton,
          fillPlainThriftStructure_lists, same]

end Shared

end RadiusEventHandler
