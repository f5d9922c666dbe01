import RadiusEventHandler.Framework.Simulation
import RadiusEventHandler.Interleaving
import RadiusEventHandler.Shutdown

/-!
# The threads refine the matcher

The matcher has numbered messages fall from the sky and workers that are idle
between them. The program has a receiver, queues, decoding, stop flags and a
main thread. Seen through `Program.matcher` every step of the program is a step
of the matcher or none: what holds of every state of the matcher holds of the
shared state of the program, for messages that are accepted datagrams.
-/

namespace RadiusEventHandler

/-- The message that a worker has popped and not looked up yet. -/
def WorkerAt.undecoded : WorkerAt → List RadiusRawMsgPtr
  | .decode p => [p]
  | _ => []

/-- Where the worker is between find and insert. -/
def WorkerAt.phase : WorkerAt → WorkerPhase
  | .missed _ msg _ => .missed msg
  | .created _ msg _ r => .created msg r
  | _ => .idle

theorem RadiusRawMsgPtr.decoded?_id {p : RadiusRawMsgPtr} {msg : DecodedMsg}
    (decoded : p.decoded? = some msg) : msg.id = p.id := by
  unfold RadiusRawMsgPtr.decoded? at decoded
  split at decoded
  · cases decoded
    rfl
  · cases decoded

namespace Program

variable {s s' : Program} {a : ProgramAction} {w : ℕ} {acts : List ProgramAction}
  {localEndpoint : Endpoint} {workersNumber workerQueueCapacity thriftQueueCapacity : ℕ}

/-- The shared state, and the workers where they are between find and insert. -/
def matcher (s : Program) : Matcher :=
  ⟨s.process.shared, fun w => (s.workers[w]?).elim .idle WorkerAt.phase⟩

theorem matcher_phase {at_w : WorkerAt} (there : s.workers[w]? = some at_w) :
    s.matcher.phase w = at_w.phase := by
  simp [matcher, there]

/-- The workers' phases after one of them has gone on. -/
theorem phase_goto {at_w : WorkerAt} (there : s.workers[w]? = some at_w) (next : WorkerAt) :
    (s.goto w next).matcher.phase = Function.update s.matcher.phase w next.phase := by
  funext w'
  by_cases same : w' = w
  · subst same
    rw [Function.update_self, matcher_phase (goto_at there next)]
  · rw [Function.update_of_ne same]
    simp [matcher, goto, List.getElem?_set_ne (Ne.symm same)]

theorem phase_goto_same {at_w : WorkerAt} (there : s.workers[w]? = some at_w) (next : WorkerAt)
    (same : next.phase = at_w.phase) : (s.goto w next).matcher.phase = s.matcher.phase := by
  rw [phase_goto there, same, ← matcher_phase there, Function.update_eq_self]

/-- Going on without leaving or entering the part between find and insert. -/
theorem matcher_goto {at_w : WorkerAt} (there : s.workers[w]? = some at_w) (next : WorkerAt)
    (same : next.phase = at_w.phase) : (s.goto w next).matcher = s.matcher :=
  congrArg (Matcher.mk s.process.shared) (phase_goto_same there next same)

/-! ## A worker at a message it has popped -/

/-- The decoding throws, or the message is looked up in the table. -/
theorem workerStep_decode {p : RadiusRawMsgPtr} (there : s.workers[w]? = some (.decode p))
    (step : s.workerStep w = some s') :
    (p.decoded? = none ∧ s' = { s with process := { s.process with terminated := true } }) ∨
    (∃ msg r, p.decoded? = some msg ∧ s.process.shared.hashTable msg.flowKey = some (some r) ∧
      s' = (s.withShared ((s.process.shared.take msg).hit msg r)).goto w .test) ∨
    (∃ msg decoded, s.process.shared.hashTable msg.flowKey = none ∧
      s' = (s.withShared (s.process.shared.take msg)).goto w (.missed p msg decoded)) := by
  simp only [workerStep, there] at step
  split at step
  · cases step
  · rename_i e throws
    exact .inl ⟨by simp [RadiusRawMsgPtr.decoded?, throws], by simpa using step.symm⟩
  · rename_i avpList returns
    have decoded : p.decoded? = some (p.decoded avpList) := by
      simp [RadiusRawMsgPtr.decoded?, returns]
    split at step
    · rename_i r found
      exact .inr (.inl ⟨_, r, decoded, found, by simpa using step.symm⟩)
    · cases step
    · rename_i absent
      exact .inr (.inr ⟨_, decoded, absent, by simpa using step.symm⟩)

/-! ## Which messages have been looked up -/

/-- The popped messages are those that were looked up, each with what it
decodes to, and those that workers still have to decode. -/
def LookedUp (s : Program) : Prop :=
  ∃ looked, s.process.popped.Perm (looked ++ s.workers.flatMap WorkerAt.undecoded) ∧
    looked.map RadiusRawMsgPtr.decoded? = s.process.shared.taken.map some

theorem lookedUp_init : (init localEndpoint workersNumber workerQueueCapacity
    thriftQueueCapacity).LookedUp := by
  have idle : (List.replicate workersNumber WorkerAt.test).flatMap WorkerAt.undecoded = [] := by
    rw [List.flatMap_eq_nil_iff]
    intro at_w mem
    rw [List.eq_of_mem_replicate mem]
    rfl
  exact ⟨[], .of_eq idle.symm, rfl⟩

/-- A step that pops no message and looks none up. -/
theorem LookedUp.congr (looked : s.LookedUp) (popped : s'.process.popped = s.process.popped)
    (undecoded : s'.workers.flatMap WorkerAt.undecoded = s.workers.flatMap WorkerAt.undecoded)
    (taken : s'.process.shared.taken = s.process.shared.taken) : s'.LookedUp := by
  rw [LookedUp, popped, undecoded, taken]
  exact looked

theorem undecoded_same {at_w next : WorkerAt} (there : s.workers[w]? = some at_w)
    (same : next.undecoded = at_w.undecoded) :
    (s.goto w next).workers.flatMap WorkerAt.undecoded =
      s.workers.flatMap WorkerAt.undecoded := by
  obtain ⟨before, after, old, new⟩ := BoundedQueue.flatMap_set WorkerAt.undecoded there next
  rw [goto, new, same, old]

/-- The message of a worker leaves its hands for the messages looked up. -/
theorem LookedUp.find {p : RadiusRawMsgPtr} {msg : DecodedMsg} {shared : Shared}
    {next : WorkerAt} (looked : s.LookedUp) (there : s.workers[w]? = some (.decode p))
    (decoded : p.decoded? = some msg) (idle : next.undecoded = [])
    (taken : shared.taken = s.process.shared.taken ++ [msg]) :
    ((s.withShared shared).goto w next).LookedUp := by
  obtain ⟨done, perm, maps⟩ := looked
  obtain ⟨before, after, old, new⟩ := BoundedQueue.flatMap_set WorkerAt.undecoded there next
  refine ⟨done ++ [p], ?_, ?_⟩
  · show s.process.popped.Perm (done ++ [p] ++ (s.workers.set w next).flatMap WorkerAt.undecoded)
    rw [new, idle, List.append_nil, List.append_assoc]
    apply perm.trans
    rw [old]
    apply List.Perm.append_left
    show (before ++ [p] ++ after).Perm ([p] ++ (before ++ after))
    rw [← List.append_assoc]
    exact List.perm_append_comm.append_right after
  · show (done ++ [p]).map RadiusRawMsgPtr.decoded? = shared.taken.map some
    rw [taken, List.map_append, List.map_append, maps, List.map_singleton, List.map_singleton,
      decoded]

theorem LookedUp.workerStep (looked : s.LookedUp) (step : s.workerStep w = some s') :
    s'.LookedUp := by
  have decodes : ∀ p, s.workers[w]? = some (.decode p) → s'.LookedUp := by
    intro p there
    rcases workerStep_decode there step with ⟨-, rfl⟩ | ⟨msg, r, decoded, -, rfl⟩ |
      ⟨msg, decoded, -, rfl⟩
    · exact looked.congr rfl rfl rfl
    · exact looked.find there decoded rfl (by rw [Shared.hit_eq]; rfl)
    · exact looked.find there decoded rfl rfl
  rcases workerStep_cases step with ⟨there, rfl⟩ | ⟨q, there, -, -, rfl⟩ |
    ⟨q, p, q', there, -, -, rfl⟩ | ⟨p, there, -⟩ | ⟨p, -, -, there, -, -⟩ | ⟨p, -, -, there, -⟩ |
    ⟨p, msg, decoded, there, rfl⟩ | ⟨p, msg, decoded, r, there, rfl⟩
  · refine looked.congr rfl (undecoded_same there ?_) rfl
    split <;> rfl
  · exact looked.congr rfl (undecoded_same there rfl) rfl
  · -- the message goes into the hands of the worker
    obtain ⟨done, perm, maps⟩ := looked
    obtain ⟨before, after, old, new⟩ := BoundedQueue.flatMap_set WorkerAt.undecoded there
      (.decode p)
    refine ⟨done, ?_, maps⟩
    show (s.process.popped ++ [p]).Perm
      (done ++ (s.workers.set w (.decode p)).flatMap WorkerAt.undecoded)
    rw [new]
    apply (perm.append_right [p]).trans
    rw [old, List.append_assoc]
    apply List.Perm.append_left
    show (before ++ [] ++ after ++ [p]).Perm (before ++ [p] ++ after)
    rw [List.append_nil, List.append_assoc, List.append_assoc]
    exact List.perm_append_comm.append_left before
  · exact decodes p there
  · exact decodes p there
  · exact decodes p there
  · exact looked.congr rfl (undecoded_same (s := s.withShared _) there rfl) rfl
  · exact looked.congr rfl (undecoded_same (s := s.withShared _) there rfl)
      (by rw [Shared.store_eq]; rfl)

theorem LookedUp.step (looked : s.LookedUp) (step : s.step a = some s') : s'.LookedUp := by
  rcases step_cases step with ⟨b, process, -, -, polled, next, rfl⟩ | ⟨r, shared, -, expire, rfl⟩ |
    ⟨-, -, rfl⟩ | ⟨m, rest, -, -, rfl⟩ | ⟨m, rest, -, -, -, rfl⟩ | ⟨w, -, worker⟩ |
    ⟨applId, now, sendThrows, -, sender⟩
  · rcases Process.polled_cases polled next with ⟨datagram, receive⟩ | rfl | ⟨e, shared, env, rfl⟩
    · obtain ⟨popped, shared, -⟩ := Process.receive_placed receive
      exact looked.congr popped rfl (congrArg Shared.taken shared)
    · exact looked.congr rfl rfl rfl
    · exact looked.congr rfl rfl (Shared.envStep_frame env).1
  · exact looked.congr rfl rfl (Shared.envStep_frame (e := .expire r) expire).1
  · exact looked.congr rfl rfl rfl
  · exact looked.congr rfl rfl rfl
  · exact looked.congr rfl rfl rfl
  · exact looked.workerStep worker
  · rcases senderStep_cases sender with ⟨-, rfl⟩ | ⟨-, -, rfl⟩ | ⟨shared, -, send, rfl⟩
    · exact looked.congr rfl rfl rfl
    · exact looked.congr rfl rfl rfl
    · exact looked.congr rfl rfl
        (Shared.envStep_frame (e := .send applId now sendThrows) send).1

/-- A message that a worker still has to decode has a number that no message
looked up has. -/
theorem LookedUp.unused (looked : s.LookedUp) (inv : s.Inv) {p : RadiusRawMsgPtr}
    (there : s.workers[w]? = some (.decode p)) :
    p.id ∉ s.process.shared.taken.map DecodedMsg.id := by
  obtain ⟨done, perm, maps⟩ := looked
  have numbers : (s.process.popped.map RadiusRawMsgPtr.id).Nodup := by
    have accepted : (s.process.accepted.map RadiusRawMsgPtr.id).Nodup := by
      rw [inv.ids]
      exact List.nodup_range
    have split := (inv.located.map RadiusRawMsgPtr.id).nodup_iff.mp accepted
    rw [List.map_append] at split
    exact (List.nodup_append.mp split).2.1
  have apart := (perm.map RadiusRawMsgPtr.id).nodup_iff.mp numbers
  rw [List.map_append, List.nodup_append] at apart
  have hand : p.id ∈ (s.workers.flatMap WorkerAt.undecoded).map RadiusRawMsgPtr.id :=
    List.mem_map_of_mem (List.mem_flatMap.mpr
      ⟨.decode p, List.mem_of_getElem? there, List.mem_singleton.mpr rfl⟩)
  intro used
  obtain ⟨msg, mem, same⟩ := List.mem_map.mp used
  have looked : some msg ∈ done.map RadiusRawMsgPtr.decoded? := by
    rw [maps]
    exact List.mem_map_of_mem mem
  obtain ⟨p', mem', decoded⟩ := List.mem_map.mp looked
  rw [RadiusRawMsgPtr.decoded?_id decoded] at same
  exact apart.2.2 _ (List.mem_map_of_mem mem') _ hand same

/-- Every message looked up is an accepted datagram, decoded. -/
theorem LookedUp.accepted (looked : s.LookedUp) (inv : s.Inv) {msg : DecodedMsg}
    (mem : msg ∈ s.process.shared.taken) :
    ∃ p ∈ s.process.accepted, p.decoded? = some msg := by
  obtain ⟨done, perm, maps⟩ := looked
  have among : some msg ∈ done.map RadiusRawMsgPtr.decoded? := by
    rw [maps]
    exact List.mem_map_of_mem mem
  obtain ⟨p, mem', decoded⟩ := List.mem_map.mp among
  have popped : p ∈ s.process.popped := perm.mem_iff.mpr (List.mem_append_left _ mem')
  exact ⟨p, inv.located.mem_iff.mpr (List.mem_append_right _ popped), decoded⟩

/-! ## The simulation -/

/-- The matcher is where the program is, whose bookkeeping is right. -/
def RefinesMatcher (s : Program) (m : Matcher) : Prop :=
  s.Inv ∧ s.LookedUp ∧ s.matcher = m

theorem matcher_find {p : RadiusRawMsgPtr} (inv : s.Inv) (looked : s.LookedUp)
    (there : s.workers[w]? = some (.decode p)) (step : s.workerStep w = some s') :
    ∃ b : Option MatcherAction, Runs.run Matcher.step s.matcher b.toList = some s'.matcher := by
  have idle : s.matcher.phase w = .idle := matcher_phase there
  rcases workerStep_decode there step with ⟨-, rfl⟩ | ⟨msg, r, decoded, found, rfl⟩ |
    ⟨msg, decoded, absent, rfl⟩
  · exact ⟨none, rfl⟩
  · refine ⟨some (.find w msg), ?_⟩
    have unused : msg.id ∉ s.matcher.shared.taken.map DecodedMsg.id := by
      rw [RadiusRawMsgPtr.decoded?_id decoded]
      exact looked.unused inv there
    have phase := phase_goto_same (s := s.withShared ((s.process.shared.take msg).hit msg r))
      there .test rfl
    have found' : s.matcher.shared.hashTable msg.flowKey = some (some r) := found
    simp only [Option.toList_some, Runs.run, Matcher.step, idle, if_neg unused, found',
      Option.bind_some]
    exact congrArg some (congrArg (Matcher.mk _) phase.symm)
  · refine ⟨some (.find w msg), ?_⟩
    have unused : msg.id ∉ s.matcher.shared.taken.map DecodedMsg.id := by
      rw [RadiusRawMsgPtr.decoded?_id decoded]
      exact looked.unused inv there
    have phase := phase_goto (s := s.withShared (s.process.shared.take msg)) there
      (.missed p msg decoded)
    have absent' : s.matcher.shared.hashTable msg.flowKey = none := absent
    simp only [Option.toList_some, Runs.run, Matcher.step, idle, if_neg unused, absent',
      Option.bind_some]
    exact congrArg some (congrArg (Matcher.mk _) phase.symm)

theorem matcher_workerStep (inv : s.Inv) (looked : s.LookedUp)
    (step : s.workerStep w = some s') :
    ∃ b : Option MatcherAction, Runs.run Matcher.step s.matcher b.toList = some s'.matcher := by
  rcases workerStep_cases step with ⟨there, rfl⟩ | ⟨q, there, -, -, rfl⟩ |
    ⟨q, p, q', there, -, -, rfl⟩ | ⟨p, there, -⟩ | ⟨p, -, -, there, -, -⟩ | ⟨p, -, -, there, -⟩ |
    ⟨p, msg, decoded, there, rfl⟩ | ⟨p, msg, decoded, r, there, rfl⟩
  · refine ⟨none, congrArg some (matcher_goto there _ ?_).symm⟩
    split <;> rfl
  · exact ⟨none, congrArg some (matcher_goto there .test rfl).symm⟩
  · exact ⟨none, congrArg some (matcher_goto (s := s.withPopped w p q') there (.decode p) rfl).symm⟩
  · exact matcher_find inv looked there step
  · exact matcher_find inv looked there step
  · exact matcher_find inv looked there step
  · have missed : s.matcher.phase w = .missed msg := matcher_phase there
    have phase := phase_goto (s := s.withShared (s.process.shared.create msg)) there
      (.created p msg decoded s.process.shared.allocated)
    refine ⟨some (.create w), ?_⟩
    simp only [Option.toList_some, Runs.run, Matcher.step, missed, Option.bind_some]
    exact congrArg some (congrArg (Matcher.mk _) phase.symm)
  · have created : s.matcher.phase w = .created msg r := matcher_phase there
    have phase := phase_goto (s := s.withShared (s.process.shared.store msg r)) there .test
    refine ⟨some (.store w), ?_⟩
    simp only [Option.toList_some, Runs.run, Matcher.step, created, Option.bind_some]
    exact congrArg some (congrArg (Matcher.mk _) phase.symm)

/-- What the main thread, a timer or the sender does to the shared state. -/
theorem matcher_env {e : Shared.EnvAction} {shared : Shared}
    (env : s.process.shared.envStep e = some shared) :
    Runs.run Matcher.step s.matcher [.env e] = some (s.withShared shared).matcher := by
  have env' : s.matcher.shared.envStep e = some shared := env
  simp only [Runs.run, Matcher.step, env', Option.map_some, Option.bind_some]
  rfl

theorem matcher_step (inv : s.Inv) (looked : s.LookedUp) (step : s.step a = some s') :
    ∃ b : Option MatcherAction, Runs.run Matcher.step s.matcher b.toList = some s'.matcher := by
  rcases step_cases step with ⟨b, process, -, -, polled, next, rfl⟩ | ⟨r, shared, -, expire, rfl⟩ |
    ⟨-, -, rfl⟩ | ⟨m, rest, -, -, rfl⟩ | ⟨m, rest, -, -, -, rfl⟩ | ⟨w, -, worker⟩ |
    ⟨applId, now, sendThrows, -, sender⟩
  · rcases Process.polled_cases polled next with ⟨datagram, receive⟩ | rfl | ⟨e, shared, env, rfl⟩
    · obtain ⟨-, shared, -⟩ := Process.receive_placed receive
      exact ⟨none, congrArg some (congrArg (Matcher.mk · _) shared.symm)⟩
    · exact ⟨none, rfl⟩
    · exact ⟨some (.env e), matcher_env env⟩
  · exact ⟨some (.env (.expire r)), matcher_env expire⟩
  · exact ⟨none, rfl⟩
  · exact ⟨none, rfl⟩
  · exact ⟨none, rfl⟩
  · exact matcher_workerStep inv looked worker
  · rcases senderStep_cases sender with ⟨-, rfl⟩ | ⟨-, -, rfl⟩ | ⟨shared, -, send, rfl⟩
    · exact ⟨none, rfl⟩
    · exact ⟨none, rfl⟩
    · exact ⟨some (.env (.send applId now sendThrows)), matcher_env send⟩

theorem simulates_matcher : Runs.Simulates step Matcher.step RefinesMatcher := by
  rintro s _ a s' ⟨inv, looked, rfl⟩ step
  obtain ⟨b, matched⟩ := matcher_step inv looked step
  exact ⟨b, s'.matcher, matched, inv.step step, looked.step step, rfl⟩

theorem matcher_init : (init localEndpoint workersNumber workerQueueCapacity
    thriftQueueCapacity).matcher = Matcher.init thriftQueueCapacity := by
  refine congrArg (Matcher.mk _) (funext fun w => ?_)
  cases there : (List.replicate workersNumber WorkerAt.test)[w]? with
  | none => exact congrArg (Option.elim · _ _) there
  | some at_w =>
      have idle := List.eq_of_mem_replicate (List.mem_of_getElem? there)
      subst idle
      exact congrArg (Option.elim · _ _) there

theorem reaches_matcher
    (run : Runs.run step (init localEndpoint workersNumber workerQueueCapacity
      thriftQueueCapacity) acts = some s) :
    ∃ macts : List MatcherAction, macts.length ≤ acts.length ∧
      Runs.run Matcher.step (Matcher.init thriftQueueCapacity) macts = some s.matcher ∧
      RefinesMatcher s s.matcher := by
  obtain ⟨macts, m, short, matched, related⟩ :=
    simulates_matcher.run ⟨inv_init, lookedUp_init, matcher_init⟩ run
  obtain ⟨inv, looked, rfl⟩ := related
  exact ⟨macts, short, matched, inv, looked, rfl⟩

/-- The invariant of the shared state, for the program. -/
theorem matcher_inv
    (run : Runs.run step (init localEndpoint workersNumber workerQueueCapacity
      thriftQueueCapacity) acts = some s) : s.matcher.Inv := by
  obtain ⟨macts, -, matched, -⟩ := reaches_matcher run
  exact Runs.invariant_of_step (I := Matcher.Inv) (Matcher.inv_init _)
    (fun _ _ _ inv step => inv.step step) matched

/-- **The program refines the matcher.** Whatever the threads do and in whatever
order, the shared state and the workers between find and insert are where some
run of the matcher leads, on decoded messages that the receiver has accepted. -/
theorem refines_matcher
    (run : Runs.run step (init localEndpoint workersNumber workerQueueCapacity
      thriftQueueCapacity) acts = some s) :
    (∃ macts : List MatcherAction, macts.length ≤ acts.length ∧
      Runs.run Matcher.step (Matcher.init thriftQueueCapacity) macts = some s.matcher) ∧
    ∀ msg ∈ s.process.shared.taken, ∃ p ∈ s.process.accepted, p.decoded? = some msg := by
  obtain ⟨macts, short, matched, inv, looked, -⟩ := reaches_matcher run
  exact ⟨⟨macts, short, matched⟩, fun msg mem => looked.accepted inv mem⟩

/-- The run that a SIGINT ends. -/
theorem refines_matcher_interrupted :
    ∃ s, Runs.run step (createModules radiusMonitor) interruptedRun = some s ∧
      s.process.shared.taken.length = 2 ∧
      (∃ macts : List MatcherAction, macts.length ≤ interruptedRun.length ∧
        Runs.run Matcher.step (Matcher.init RadiusEventHandler.thriftQueueCapacity) macts =
          some s.matcher) ∧
      ∀ msg ∈ s.process.shared.taken, ∃ p ∈ s.process.accepted, p.decoded? = some msg := by
  have facts : (Runs.run step (createModules radiusMonitor) interruptedRun).map
      (fun s => s.process.shared.taken.length) = some 2 := by
    decide +kernel
  obtain ⟨s, run, two⟩ := Option.map_eq_some_iff.mp facts
  exact ⟨s, run, two, refines_matcher run⟩

end Program

end RadiusEventHandler
