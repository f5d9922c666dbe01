import RadiusEventHandler.Matching
import RadiusEventHandler.MessageSteps

/-!
# Workers interleaved between find and insert

Any number of workers, each idle or somewhere in the handling of a message. A
find that hits is one step, all of it under the lock of the entry. After a find
that misses the lock is given up: the creation of the record and the insertion
are steps of their own, and anything can happen in between.

`Inv` holds in every reachable state. What a run leads to is what some
sequential order of its messages leads to exactly when no insertion meets an
entry that came after the find.
-/

namespace RadiusEventHandler

/-- Where a worker is in the handling of a message. -/
inductive WorkerPhase where
  | idle
  | missed (msg : DecodedMsg)
  | created (msg : DecodedMsg) (r : RecordId)

namespace WorkerPhase

/-- The record a worker has created and not stored yet. -/
def held : WorkerPhase → Option (DecodedMsg × RecordId)
  | .idle => none
  | .missed _ => none
  | .created msg r => some (msg, r)

/-- The message a worker is in the middle of. -/
def inHand : WorkerPhase → Option DecodedMsg
  | .idle => none
  | .missed msg => some msg
  | .created msg _ => some msg

end WorkerPhase

structure Matcher where
  shared : Shared
  phase : ℕ → WorkerPhase

inductive MatcherAction where
  | find (w : ℕ) (msg : DecodedMsg)
  | create (w : ℕ)
  | store (w : ℕ)
  | env (a : Shared.EnvAction)

/-- What the records in the table, the pushed records and their lists are. -/
structure Shared.PairingSound (s : Shared) : Prop where
  entry : ∀ key p, s.hashTable key = some p →
    ∃ r, p = some r ∧ (s.thriftStructs r).HasOneList
  pushed : ∀ r ∈ s.pushed,
    (s.thriftStructs r).reqAvpListPtr.isSome ∨ (s.thriftStructs r).respAvpListPtr.isSome
  request : ∀ r a, (s.thriftStructs r).reqAvpListPtr = some a →
    ∃ q ∈ s.taken, q.avpListPtr = a ∧ q.radMsgCode = accountingRequest
  response : ∀ r b, (s.thriftStructs r).respAvpListPtr = some b →
    ∃ p ∈ s.taken, p.avpListPtr = b ∧ p.radMsgCode = accountingResponse
  both : ∀ r a b, (s.thriftStructs r).reqAvpListPtr = some a →
    (s.thriftStructs r).respAvpListPtr = some b →
    ∃ q ∈ s.taken, ∃ p ∈ s.taken, q.avpListPtr = a ∧ p.avpListPtr = b ∧
      q.radMsgCode = accountingRequest ∧ p.radMsgCode = accountingResponse ∧
      q.flowKey = p.flowKey ∧ ∀ key, s.StoredUnder r key ↔ key = q.flowKey
  evicted : ∀ owner r, (owner, r) ∈ s.evicted → (s.thriftStructs r).HasOneList

namespace Matcher

def init (thriftQueueCapacity : ℕ) : Matcher := ⟨.init thriftQueueCapacity, fun _ => .idle⟩

def step (m : Matcher) : MatcherAction → Option Matcher
  | .find w msg =>
      match m.phase w with
      | .idle =>
          if msg.id ∈ m.shared.taken.map DecodedMsg.id then none
          else
            match m.shared.hashTable msg.flowKey with
            | some (some r) => some { m with shared := (m.shared.take msg).hit msg r }
            | some none => none
            | none =>
                some { shared := m.shared.take msg
                       phase := Function.update m.phase w (.missed msg) }
      | _ => none
  | .create w =>
      match m.phase w with
      | .missed msg =>
          some { shared := m.shared.create msg
                 phase := Function.update m.phase w (.created msg m.shared.allocated) }
      | _ => none
  | .store w =>
      match m.phase w with
      | .created msg r =>
          some { shared := m.shared.store msg r, phase := Function.update m.phase w .idle }
      | _ => none
  | .env a => (m.shared.envStep a).map fun shared => { m with shared }

variable {m m' : Matcher} {msg : DecodedMsg} {w : ℕ} {r : RecordId} {key : FlowKey}
  {acts : List MatcherAction} {capacity : ℕ}

/-! ## What a step can do -/

/-- The steps of a worker and of the environment, each with its state before
and after. -/
theorem step_cases {a : MatcherAction} (step : m.step a = some m') :
    (∃ w msg r, a = .find w msg ∧ m.phase w = .idle ∧
      msg.id ∉ m.shared.taken.map DecodedMsg.id ∧
      m.shared.hashTable msg.flowKey = some (some r) ∧
      m' = ⟨(m.shared.take msg).hit msg r, m.phase⟩) ∨
    (∃ w msg, a = .find w msg ∧ m.phase w = .idle ∧
      msg.id ∉ m.shared.taken.map DecodedMsg.id ∧ m.shared.hashTable msg.flowKey = none ∧
      m' = ⟨m.shared.take msg, Function.update m.phase w (.missed msg)⟩) ∨
    (∃ w msg, a = .create w ∧ m.phase w = .missed msg ∧
      m' = ⟨m.shared.create msg,
        Function.update m.phase w (.created msg m.shared.allocated)⟩) ∨
    (∃ w msg r, a = .store w ∧ m.phase w = .created msg r ∧
      m' = ⟨m.shared.store msg r, Function.update m.phase w .idle⟩) ∨
    (∃ e shared, a = .env e ∧ m.shared.envStep e = some shared ∧ m' = ⟨shared, m.phase⟩) := by
  cases a with
  | find w msg =>
      simp only [Matcher.step] at step
      split at step
      · rename_i idle
        split at step
        · cases step
        · rename_i unused
          split at step
          · rename_i r found
            exact .inl ⟨w, msg, r, rfl, idle, unused, found, by simpa using step.symm⟩
          · cases step
          · rename_i absent
            exact .inr (.inl ⟨w, msg, rfl, idle, unused, absent, by simpa using step.symm⟩)
      · cases step
  | create w =>
      simp only [Matcher.step] at step
      split at step
      · rename_i msg missed
        exact .inr (.inr (.inl ⟨w, msg, rfl, missed, by simpa using step.symm⟩))
      · cases step
  | store w =>
      simp only [Matcher.step] at step
      split at step
      · rename_i msg r created
        exact .inr (.inr (.inr (.inl ⟨w, msg, r, rfl, created, by simpa using step.symm⟩)))
      · cases step
  | env e =>
      obtain ⟨shared, env, rfl⟩ := Option.map_eq_some_iff.mp step
      exact .inr (.inr (.inr (.inr ⟨e, shared, rfl, env, rfl⟩)))

/-! ## The invariant -/

def held (m : Matcher) (w : ℕ) : Option (DecodedMsg × RecordId) := (m.phase w).held

def inHand (m : Matcher) (w : ℕ) : Option DecodedMsg := (m.phase w).inHand

structure Inv (m : Matcher) : Prop where
  shared : m.shared.Inv m.held
  inHand : ∀ w msg, m.inHand w = some msg → msg ∈ m.shared.taken

theorem held_update (shared shared' : Shared) (phase : ℕ → WorkerPhase) (w : ℕ)
    (p : WorkerPhase) :
    (Matcher.mk shared (Function.update phase w p)).held =
      Function.update (Matcher.mk shared' phase).held w p.held :=
  Function.comp_update WorkerPhase.held phase w p

theorem inHand_update (shared shared' : Shared) (phase : ℕ → WorkerPhase) (w : ℕ)
    (p : WorkerPhase) :
    (Matcher.mk shared (Function.update phase w p)).inHand =
      Function.update (Matcher.mk shared' phase).inHand w p.inHand :=
  Function.comp_update WorkerPhase.inHand phase w p

theorem Inv.step {a : MatcherAction} (inv : m.Inv) (step : m.step a = some m') : m'.Inv := by
  rcases step_cases step with ⟨w, msg, r, -, idle, -, found, rfl⟩ |
    ⟨w, msg, -, idle, -, absent, rfl⟩ | ⟨w, msg, -, missed, rfl⟩ | ⟨w, msg, r, -, created, rfl⟩ |
    ⟨e, shared, -, env, rfl⟩
  · refine ⟨(inv.shared.take msg).hit found (Shared.mem_take _ _), fun w' msg' hand => ?_⟩
    rw [Shared.hit_eq]
    exact List.mem_append_left _ (inv.inHand w' msg' hand)
  · -- a worker that has missed holds no record yet
    constructor
    · have free : (WorkerPhase.missed msg).held = m.held w := by
        rw [held, idle]
        rfl
      rw [held_update _ m.shared, free, Function.update_eq_self]
      exact inv.shared.take msg
    · intro w' msg' hand
      rw [inHand_update _ m.shared] at hand
      rcases update_eq_cases hand with ⟨-, eq⟩ | ⟨-, old⟩
      · cases eq
        exact Shared.mem_take _ _
      · exact List.mem_append_left _ (inv.inHand w' msg' old)
  · have mem : msg ∈ m.shared.taken := inv.inHand w msg (by rw [Matcher.inHand, missed]; rfl)
    constructor
    · rw [held_update _ m.shared]
      exact inv.shared.create mem
    · intro w' msg' hand
      rw [inHand_update _ m.shared] at hand
      rcases update_eq_cases hand with ⟨-, eq⟩ | ⟨-, old⟩
      · cases eq
        exact mem
      · exact inv.inHand w' msg' old
  · constructor
    · rw [held_update _ m.shared]
      exact inv.shared.store (by rw [held, created]; rfl)
    · intro w' msg' hand
      rw [inHand_update _ m.shared] at hand
      rcases update_eq_cases hand with ⟨-, eq⟩ | ⟨-, old⟩
      · cases eq
      · rw [Shared.store_eq]
        exact inv.inHand w' msg' old
  · refine ⟨inv.shared.envStep env, fun w' msg' hand => ?_⟩
    rw [(Shared.envStep_frame env).1]
    exact inv.inHand w' msg' hand

theorem inv_init (capacity : ℕ) : (init capacity).Inv :=
  ⟨Shared.inv_init capacity, fun _ _ hand => nomatch hand⟩

/-- **Pairing soundness**, in every state that any number of workers, timers
and the sender can reach. -/
theorem pairing_sound (run : Runs.run step (init capacity) acts = some m) :
    m.shared.PairingSound := by
  have inv : m.Inv := Runs.invariant_of_step (I := Inv) (inv_init capacity)
    (fun _ _ _ inv step => inv.step step) run
  obtain ⟨entry, -, storedKey, pushed, -, evicted, request, response, both, -, -⟩ := inv.shared
  refine ⟨?_, fun r mem => (pushed r mem).2, ?_, ?_, ?_,
    fun owner r mem => (evicted owner r mem).2⟩
  · intro key p found
    obtain ⟨r, eq, -, one⟩ := entry key p found
    exact ⟨r, eq, one⟩
  · intro r a set
    obtain ⟨q, mem, ptr, code, -⟩ := request r a set
    exact ⟨q, mem, ptr, code⟩
  · intro r b set
    obtain ⟨p, mem, ptr, code, -⟩ := response r b set
    exact ⟨p, mem, ptr, code⟩
  · intro r a b setReq setResp
    obtain ⟨q, memq, ptrq, codeq, keyq⟩ := request r a setReq
    obtain ⟨p, memp, ptrp, codep, keyp⟩ := response r b setResp
    obtain ⟨key, stored⟩ := both r (by simp [setReq]) (by simp [setResp])
    refine ⟨q, memq, p, memp, ptrq, ptrp, codeq, codep,
      (keyq key stored).trans (keyp key stored).symm, fun key' => ?_⟩
    rw [keyq key stored]
    exact ⟨fun stored' => storedKey r key' key stored' stored, fun same => same ▸ stored⟩

/-- On one key two workers both miss, the response overwrites the request and is
evicted by the request's timer; on another one a request and its response are
merged; a third request is left in the table. -/
theorem pairing_sound_merged :
    let lost : FlowKey := ⟨2, 1, 40000, 1813, 7⟩
    let paired : FlowKey := ⟨2, 1, 40000, 1813, 8⟩
    let left : FlowKey := ⟨2, 1, 40000, 1813, 9⟩
    let acts := [.find 0 (.request 0 lost []), .find 1 (.response 1 lost []), .create 0,
      .find 2 (.request 2 paired []), .create 2, .create 1, .store 0, .store 2, .store 1,
      .find 0 (.response 3 paired []), .find 2 (.request 4 left []), .create 2,
      .env (.expire 0), .env (.runHandler 0), .store 2]
    ∃ m, Runs.run step (init 4) acts = some m ∧
      (m.shared.hashTable lost = none ∧ m.shared.hashTable paired = none ∧
        m.shared.hashTable left = some (some 3) ∧ m.shared.pushed = [1, 2] ∧
        (m.shared.thriftStructs 1).lists = (some ⟨2, []⟩, some ⟨3, []⟩) ∧
        (m.shared.thriftStructs 2).lists = (none, some ⟨1, []⟩) ∧
        m.shared.evicted = [(0, 2)]) ∧
      m.shared.PairingSound := by
  intro lost paired left acts
  have facts : (Runs.run step (init 4) acts).map (fun m => decide
      (m.shared.hashTable lost = none ∧ m.shared.hashTable paired = none ∧
        m.shared.hashTable left = some (some 3) ∧ m.shared.pushed = [1, 2] ∧
        (m.shared.thriftStructs 1).lists = (some ⟨2, []⟩, some ⟨3, []⟩) ∧
        (m.shared.thriftStructs 2).lists = (none, some ⟨1, []⟩) ∧
        m.shared.evicted = [(0, 2)])) = some true := by
    decide +kernel
  obtain ⟨m, run, facts⟩ := Option.map_eq_some_iff.mp facts
  exact ⟨m, run, of_decide_eq_true facts, pairing_sound run⟩

end Matcher

end RadiusEventHandler
