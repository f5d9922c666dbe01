import RadiusEventHandler.Framework.Schedule
import RadiusEventHandler.ThreadRefinement

/-!
# A shutdown that comes to its end

`stopModules` joins one thread after the other, and a thread that has its turn
again and again leaves its loop soon after its flag has been set: it is done
with the message in its hands first. The one thing that can hold a thread up is
a message whose decoding gives no list; the loop of `getAllAvps` is never left,
or the exception ends the process.
-/

namespace RadiusEventHandler

/-- The module whose thread takes the step. -/
def ProgramAction.thread : ProgramAction → Option ProgramModule
  | .worker w => some (.worker w)
  | .sender _ _ _ => some .thriftSender
  | _ => none

/-- Turns until the loop is left, when the stop flag is set. -/
def WorkerAt.turnsLeft : WorkerAt → ℕ
  | .tryPop => 5
  | .decode _ => 4
  | .missed _ _ _ => 3
  | .created _ _ _ _ => 2
  | .test => 1
  | .stopped => 0

def SenderAt.turnsLeft : SenderAt → ℕ
  | .tryPop => 2
  | .test => 1
  | .stopped => 0

namespace Program

variable {s s' : Program} {a : ProgramAction} {w : ℕ} {m : ProgramModule}
  {rest : List ProgramModule} {acts : List ProgramAction} {sched : ℕ → ProgramAction}
  {localEndpoint : Endpoint} {workersNumber workerQueueCapacity thriftQueueCapacity : ℕ}

def turnsLeft (s : Program) : ProgramModule → ℕ
  | .thriftSender => s.sender.turnsLeft
  | .worker w => (s.workers[w]?).elim 0 WorkerAt.turnsLeft

theorem turnsLeft_worker {at_w : WorkerAt} (there : s.workers[w]? = some at_w) :
    s.turnsLeft (.worker w) = at_w.turnsLeft := by
  rw [turnsLeft, there, Option.elim_some]

/-- A worker has a message in its hands that does not decode to a list. -/
def Stuck (s : Program) : Prop :=
  ∃ (w : ℕ) (p : RadiusRawMsgPtr), s.workers[w]? = some (.decode p) ∧ p.decoded? = none

/-- What is known of every state that is reached. -/
structure Running (workersNumber : ℕ) (s : Program) : Prop where
  control : Control workersNumber s
  queues : s.process.dispatcher.workersInputQueues.length = workersNumber
  ended : s.process.terminated = true → s.Stuck
  entries : ∀ key, s.process.shared.hashTable key ≠ some none
  flagged : ∀ m, s.Stopped m → s.stopThread m = true

/-! ## What every state is like -/

theorem receive_terminated {process : Process} {datagram : Arrival}
    (step : s.process.receiveRaduisMessage datagram = some process) :
    process.terminated = s.process.terminated := by
  simp only [Process.receiveRaduisMessage] at step
  split at step
  · split at step
    · split at step
      · cases step
        rfl
      · cases step
        rfl
      · cases step
    · cases step
      rfl
  · cases step

theorem poll_terminated {b : ProcessAction} {process : Process} (polled : b.isPolled = true)
    (step : s.process.step b = some process) : process.terminated = s.process.terminated := by
  rcases Process.polled_cases polled step with ⟨datagram, receive⟩ | rfl | ⟨e, shared, -, rfl⟩
  · exact receive_terminated receive
  · rfl
  · rfl

/-- A worker ends the process at a message that does not decode, and there only. -/
theorem workerStep_terminated (alive : s.process.terminated = false)
    (step : s.workerStep w = some s') (ended : s'.process.terminated = true) : s'.Stuck := by
  have still : ∀ t : Program, s' = t → t.process.terminated = s.process.terminated → s'.Stuck := by
    intro t eq same
    rw [eq, same, alive] at ended
    cases ended
  rcases workerStep_cases step with ⟨-, eq⟩ | ⟨q, -, -, -, eq⟩ | ⟨q, p, q', -, -, -, eq⟩ |
    ⟨p, there, -⟩ | ⟨p, msg, r, -, -, eq⟩ | ⟨p, msg, decoded, -, eq⟩ |
    ⟨p, msg, decoded, -, eq⟩ | ⟨p, msg, decoded, r, -, eq⟩
  · exact still _ eq rfl
  · exact still _ eq rfl
  · exact still _ eq rfl
  · rcases workerStep_decode there step with ⟨fails, eq⟩ | ⟨msg, r, -, -, eq⟩ |
      ⟨msg, decoded, -, eq⟩
    · exact ⟨w, p, eq ▸ there, fails⟩
    · exact still _ eq rfl
    · exact still _ eq rfl
  · exact still _ eq rfl
  · exact still _ eq rfl
  · exact still _ eq rfl
  · exact still _ eq rfl

theorem step_terminated (step : s.step a = some s') (ended : s'.process.terminated = true) :
    s'.Stuck := by
  have alive : s.process.terminated = false := by
    unfold Program.step at step
    split at step
    · cases step
    · rename_i alive
      exact Bool.eq_false_of_not_eq_true alive
  have still : s'.process.terminated = s.process.terminated → s'.Stuck := by
    intro same
    rw [same, alive] at ended
    cases ended
  rcases step_cases step with ⟨b, process, -, -, polled, next, rfl⟩ | ⟨r, shared, -, -, rfl⟩ |
    ⟨-, -, rfl⟩ | ⟨m, rest, -, -, rfl⟩ | ⟨m, rest, -, -, -, rfl⟩ | ⟨w, -, worker⟩ |
    ⟨applId, now, sendThrows, -, sender⟩
  · exact still (poll_terminated polled next)
  · exact still rfl
  · exact still rfl
  · exact still rfl
  · exact still rfl
  · exact workerStep_terminated alive worker ended
  · rcases senderStep_cases sender with ⟨-, rfl⟩ | ⟨-, -, rfl⟩ | ⟨shared, -, -, rfl⟩ <;>
      exact still rfl

theorem step_queues (step : s.step a = some s') :
    s'.process.dispatcher.workersInputQueues.length =
      s.process.dispatcher.workersInputQueues.length := by
  rcases step_cases step with ⟨b, process, -, -, polled, next, rfl⟩ | ⟨r, shared, -, -, rfl⟩ |
    ⟨-, -, rfl⟩ | ⟨m, rest, -, -, rfl⟩ | ⟨m, rest, -, -, -, rfl⟩ | ⟨w, -, worker⟩ |
    ⟨applId, now, sendThrows, -, sender⟩
  · rcases Process.polled_cases polled next with ⟨datagram, receive⟩ | rfl | ⟨e, shared, -, rfl⟩
    · obtain ⟨-, -, ⟨-, same⟩ | ⟨p, i, q, q', -, -, -, -, set⟩⟩ := Process.receive_placed receive
      · exact congrArg List.length same
      · exact (congrArg List.length set).trans List.length_set
    · rfl
    · rfl
  · rfl
  · rfl
  · rfl
  · rfl
  · obtain ⟨-, -, -, -, -, same | ⟨q, set⟩⟩ := workerStep_frame worker
    · exact congrArg List.length same
    · exact (congrArg List.length set).trans List.length_set
  · rcases senderStep_cases sender with ⟨-, rfl⟩ | ⟨-, -, rfl⟩ | ⟨shared, -, -, rfl⟩ <;> rfl

theorem workerStep_stopped (step : s.workerStep w = some s')
    (stopped : s'.workers[w]? = some .stopped) : s.stopThread (.worker w) = true := by
  have other : ∀ {t : Program} {at_w next : WorkerAt}, s' = t.goto w next →
      t.workers[w]? = some at_w → next = .stopped := by
    rintro t at_w next rfl there
    exact Option.some.inj ((goto_at there next).symm.trans stopped)
  rcases workerStep_cases step with ⟨there, eq⟩ | ⟨q, there, -, -, eq⟩ |
    ⟨q, p, q', there, -, -, eq⟩ | ⟨p, there, rfl⟩ | ⟨p, msg, r, there, -, eq⟩ |
    ⟨p, msg, decoded, there, eq⟩ | ⟨p, msg, decoded, there, eq⟩ |
    ⟨p, msg, decoded, r, there, eq⟩
  · by_contra unset
    rw [if_neg unset] at eq
    cases other eq there
  · cases other eq there
  · cases other eq there
  · cases there.symm.trans stopped
  · cases other eq there
  · cases other eq there
  · cases other eq there
  · cases other eq there

/-- A thread stops only when its flag is set. -/
theorem step_flagged (flagged : ∀ m, s.Stopped m → s.stopThread m = true)
    (step : s.step a = some s') : ∀ m, s'.Stopped m → s'.stopThread m = true := by
  intro m stopped
  rcases step_cases step with ⟨b, process, -, -, -, -, rfl⟩ | ⟨r, shared, -, -, rfl⟩ |
    ⟨-, -, rfl⟩ | ⟨m', rest, -, -, rfl⟩ | ⟨m', rest, -, -, -, rfl⟩ | ⟨w, -, worker⟩ |
    ⟨applId, now, sendThrows, -, sender⟩
  · exact flagged m stopped
  · exact flagged m stopped
  · exact flagged m stopped
  · exact update_flag m' (flagged m stopped)
  · exact flagged m stopped
  · obtain ⟨same, flags, -, -, ⟨next, workers⟩, -⟩ := workerStep_frame worker
    rw [flags]
    cases m with
    | thriftSender => exact flagged .thriftSender (same.symm.trans stopped)
    | worker w' =>
        have stopped : s'.workers[w']? = some .stopped := stopped
        by_cases own : w = w'
        · subst own
          exact workerStep_stopped worker stopped
        · rw [workers, List.getElem?_set_ne own] at stopped
          exact flagged (.worker w') stopped
  · rcases senderStep_cases sender with ⟨-, rfl⟩ | ⟨-, -, rfl⟩ | ⟨shared, -, -, rfl⟩
    · cases m with
      | thriftSender =>
          by_contra unset
          simp [Stopped, unset] at stopped
      | worker w => exact flagged (.worker w) stopped
    · cases m with
      | thriftSender => cases stopped
      | worker w => exact flagged (.worker w) stopped
    · cases m with
      | thriftSender => cases stopped
      | worker w => exact flagged (.worker w) stopped

theorem running_of_run
    (run : Runs.run step (init localEndpoint workersNumber workerQueueCapacity
      thriftQueueCapacity) acts = some s) : Running workersNumber s := by
  have control : Control workersNumber s :=
    Runs.invariant_of_step (I := Control workersNumber) control_init
      (fun _ _ _ control step => control.step step) run
  have queues : s.process.dispatcher.workersInputQueues.length = workersNumber :=
    Runs.invariant_of_step
      (I := fun t => t.process.dispatcher.workersInputQueues.length = workersNumber)
      List.length_replicate (fun _ _ _ length step => (step_queues step).trans length) run
  have ended : s.process.terminated = true → s.Stuck :=
    Runs.invariant_of_step (I := fun t => t.process.terminated = true → t.Stuck)
      (fun ended => absurd ended Bool.false_ne_true)
      (fun _ _ _ _ step => step_terminated step) run
  have flagged : ∀ m, s.Stopped m → s.stopThread m = true := by
    refine Runs.invariant_of_step (I := fun t => ∀ m, t.Stopped m → t.stopThread m = true)
      (fun m stopped => ?_) (fun _ _ _ flagged step => step_flagged flagged step) run
    cases m with
    | thriftSender => cases stopped
    | worker w => cases List.eq_of_mem_replicate (List.mem_of_getElem? stopped)
  refine ⟨control, queues, ended, fun key null => ?_, flagged⟩
  obtain ⟨r, eq, -⟩ := (matcher_inv run).shared.entry key none null
  cases eq

/-! ## Turns of a thread -/

theorem step_sender (alive : s.process.terminated = false) (applId : UInt16) (now : UInt64)
    (sendThrows : Bool) : s.step (.sender applId now sendThrows) =
      s.senderStep applId now sendThrows := by
  rw [Program.step, alive]
  rfl

/-- A worker that has not stopped can go on, unless its message does not decode. -/
theorem workerStep_isSome {at_w : WorkerAt} (running : Running workersNumber s)
    (free : ¬ s.Stuck) (there : s.workers[w]? = some at_w) (goes : at_w ≠ .stopped) :
    ∃ s', s.workerStep w = some s' := by
  cases at_w with
  | test => exact ⟨_, by simp only [workerStep, there]; rfl⟩
  | tryPop =>
      have lt : w < s.process.dispatcher.workersInputQueues.length := by
        rw [running.queues, ← running.control.workers]
        exact (List.getElem?_eq_some_iff.mp there).1
      simp only [workerStep, there, List.getElem?_eq_getElem lt]
      split
      · exact ⟨_, rfl⟩
      · exact ⟨_, rfl⟩
  | decode p =>
      cases decodes : p.decode with
      | none => exact absurd ⟨w, p, there, by simp [RadiusRawMsgPtr.decoded?, decodes]⟩ free
      | some result =>
          cases result with
          | error e => exact absurd ⟨w, p, there, by simp [RadiusRawMsgPtr.decoded?, decodes]⟩ free
          | ok avpList =>
              cases found : s.process.shared.hashTable (p.decoded avpList).flowKey with
              | none =>
                  obtain ⟨decoded, next⟩ := workerStep_miss there decodes found
                  exact ⟨_, next⟩
              | some r =>
                  cases r with
                  | none => exact absurd found (running.entries _)
                  | some r => exact ⟨_, workerStep_hit there decodes found⟩
  | missed p msg decoded => exact ⟨_, by simp only [workerStep, there]; rfl⟩
  | created p msg decoded r => exact ⟨_, by simp only [workerStep, there]; rfl⟩
  | stopped => exact absurd rfl goes

theorem senderStep_isSome (goes : s.sender ≠ .stopped) (applId : UInt16) (now : UInt64)
    (sendThrows : Bool) : ∃ s', s.senderStep applId now sendThrows = some s' := by
  unfold senderStep
  split
  · exact ⟨_, rfl⟩
  · split
    · exact ⟨_, rfl⟩
    · exact ⟨_, rfl⟩
  · rename_i stopped
    exact absurd stopped goes

/-- The thread of a module that has not stopped can take its turn. -/
theorem thread_isSome (running : Running workersNumber s) (free : ¬ s.Stuck)
    (mem : m ∈ s.modulesArray) (goes : ¬ s.Stopped m) (turn : a.thread = some m) :
    ∃ s', s.step a = some s' := by
  have alive : s.process.terminated = false :=
    Bool.eq_false_of_not_eq_true fun ended => free (running.ended ended)
  cases a with
  | worker w =>
      cases turn
      obtain ⟨w', lt, eq⟩ := List.mem_map.mp (List.mem_of_ne_of_mem (by simp) mem)
      cases eq
      have there := List.getElem?_eq_getElem (List.mem_range.mp lt)
      rw [step_worker alive]
      refine workerStep_isSome running free there fun stopped => goes ?_
      rw [Stopped, there, stopped]
  | sender applId now sendThrows =>
      cases turn
      rw [step_sender alive]
      exact senderStep_isSome goes applId now sendThrows
  | poll b => cases turn
  | expire r => cases turn
  | sigint => cases turn
  | stop => cases turn
  | join => cases turn

/-- No other thread changes where a thread is. -/
theorem turnsLeft_other (step : s.step a = some s') (other : a.thread ≠ some m) :
    s'.turnsLeft m = s.turnsLeft m := by
  rcases step_cases step with ⟨b, process, rfl, -, -, -, rfl⟩ | ⟨r, shared, rfl, -, rfl⟩ |
    ⟨rfl, -, rfl⟩ | ⟨m', rest, rfl, -, rfl⟩ | ⟨m', rest, rfl, -, -, rfl⟩ | ⟨w, rfl, worker⟩ |
    ⟨applId, now, sendThrows, rfl, sender⟩
  · cases m <;> rfl
  · cases m <;> rfl
  · cases m <;> rfl
  · cases m <;> rfl
  · cases m <;> rfl
  · obtain ⟨same, -, -, -, ⟨next, workers⟩, -⟩ := workerStep_frame worker
    cases m with
    | thriftSender => rw [turnsLeft, turnsLeft, same]
    | worker w' =>
        have ne : w ≠ w' := fun eq => other (eq ▸ rfl)
        rw [turnsLeft, turnsLeft, workers, List.getElem?_set_ne ne]
  · cases m with
    | thriftSender => exact absurd rfl other
    | worker w' =>
        rcases senderStep_cases sender with ⟨-, rfl⟩ | ⟨-, -, rfl⟩ | ⟨shared, -, -, rfl⟩ <;> rfl

theorem workerStep_turnsLeft (flag : s.stopThread (.worker w) = true) (free : ¬ s'.Stuck)
    (step : s.workerStep w = some s') : s'.turnsLeft (.worker w) < s.turnsLeft (.worker w) := by
  -- from one place to the next
  have goes : ∀ {t : Program} {at_w next : WorkerAt}, t.workers[w]? = some at_w →
      at_w.turnsLeft = s.turnsLeft (.worker w) → next.turnsLeft < at_w.turnsLeft →
      (t.goto w next).turnsLeft (.worker w) < s.turnsLeft (.worker w) := by
    intro t at_w next there same lower
    rwa [turnsLeft_worker (goto_at there next), ← same]
  have here : ∀ {at_w : WorkerAt}, s.workers[w]? = some at_w →
      at_w.turnsLeft = s.turnsLeft (.worker w) := fun there => (turnsLeft_worker there).symm
  rcases workerStep_cases step with ⟨there, rfl⟩ | ⟨q, there, -, -, rfl⟩ |
    ⟨q, p, q', there, -, -, rfl⟩ | ⟨p, there, rfl⟩ | ⟨p, msg, r, there, -, rfl⟩ |
    ⟨p, msg, decoded, there, rfl⟩ | ⟨p, msg, decoded, there, rfl⟩ |
    ⟨p, msg, decoded, r, there, rfl⟩
  · rw [if_pos flag]
    exact goes there (here there) (by decide)
  · exact goes there (here there) (by simp [WorkerAt.turnsLeft])
  · exact goes (t := s.withPopped w p q') there (here there) (by simp [WorkerAt.turnsLeft])
  · rcases workerStep_decode there step with ⟨fails, -⟩ | ⟨msg, r, -, -, eq⟩ |
      ⟨msg, decoded, -, eq⟩
    · exact absurd ⟨w, p, there, fails⟩ free
    · rw [eq]
      exact goes (t := s.withShared _) there (here there) (by simp [WorkerAt.turnsLeft])
    · rw [eq]
      exact goes (t := s.withShared _) there (here there) (by simp [WorkerAt.turnsLeft])
  · exact goes (t := s.withShared _) there (here there) (by simp [WorkerAt.turnsLeft])
  · exact goes (t := s.withShared _) there (here there) (by simp [WorkerAt.turnsLeft])
  · exact goes (t := s.withShared _) there (here there) (by simp [WorkerAt.turnsLeft])
  · exact goes (t := s.withShared _) there (here there) (by simp [WorkerAt.turnsLeft])

theorem turnsLeft_lower (flag : s.stopThread m = true) (free : ¬ s'.Stuck)
    (step : s.step a = some s') (turn : a.thread = some m) : s'.turnsLeft m < s.turnsLeft m := by
  rcases step_cases step with ⟨b, process, rfl, -, -, -, rfl⟩ | ⟨r, shared, rfl, -, rfl⟩ |
    ⟨rfl, -, rfl⟩ | ⟨m', rest, rfl, -, rfl⟩ | ⟨m', rest, rfl, -, -, rfl⟩ | ⟨w, rfl, worker⟩ |
    ⟨applId, now, sendThrows, rfl, sender⟩
  · cases turn
  · cases turn
  · cases turn
  · cases turn
  · cases turn
  · cases turn
    exact workerStep_turnsLeft flag free worker
  · cases turn
    rcases senderStep_cases sender with ⟨there, rfl⟩ | ⟨there, -, rfl⟩ | ⟨shared, there, -, rfl⟩
    · simp [turnsLeft, there, if_pos flag, SenderAt.turnsLeft]
    · simp [turnsLeft, there, SenderAt.turnsLeft]
    · simp [turnsLeft, there, SenderAt.turnsLeft]

/-! ## The main thread -/

/-- What changes where the main thread is. -/
theorem step_main (step : s.step a = some s') :
    s'.main = s.main ∨ (a = .sigint ∧ s.main = .polling) ∨
      (∃ m rest, a = .stop ∧ s.main = .stopping (m :: rest) ∧ s'.main = .joining m rest) ∨
      ∃ m rest, a = .join ∧ s.main = .joining m rest ∧ s.Stopped m ∧ s'.main = .stopping rest := by
  rcases step_cases step with ⟨b, process, -, -, -, -, rfl⟩ | ⟨r, shared, -, -, rfl⟩ |
    ⟨rfl, polling, rfl⟩ | ⟨m, rest, rfl, stopping, rfl⟩ | ⟨m, rest, rfl, joining, stopped, rfl⟩ |
    ⟨w, -, worker⟩ | ⟨applId, now, sendThrows, -, sender⟩
  · exact .inl rfl
  · exact .inl rfl
  · exact .inr (.inl ⟨rfl, polling⟩)
  · exact .inr (.inr (.inl ⟨m, rest, rfl, stopping, rfl⟩))
  · exact .inr (.inr (.inr ⟨m, rest, rfl, joining, stopped, rfl⟩))
  · exact .inl (workerStep_frame worker).2.2.1
  · rcases senderStep_cases sender with ⟨-, rfl⟩ | ⟨-, -, rfl⟩ | ⟨shared, -, -, rfl⟩ <;>
      exact .inl rfl

theorem main_stopping (stopping : s.main = .stopping (m :: rest)) (step : s.step a = some s') :
    s'.main = .joining m rest ∨ s'.main = .stopping (m :: rest) := by
  rcases step_main step with same | ⟨-, polling⟩ | ⟨m', rest', -, stopping', next⟩ |
    ⟨m', rest', -, joining, -⟩
  · exact .inr (same.trans stopping)
  · cases stopping.symm.trans polling
  · cases stopping.symm.trans stopping'
    exact .inl next
  · cases stopping.symm.trans joining

theorem main_joining (joining : s.main = .joining m rest) (step : s.step a = some s') :
    s'.main = .joining m rest ∨ (s.Stopped m ∧ s'.main = .stopping rest) := by
  rcases step_main step with same | ⟨-, polling⟩ | ⟨m', rest', -, stopping, -⟩ |
    ⟨m', rest', -, joining', stopped, next⟩
  · exact .inl (same.trans joining)
  · cases joining.symm.trans polling
  · cases joining.symm.trans stopping
  · cases joining.symm.trans joining'
    exact .inr ⟨stopped, next⟩

/-- `stopModules` has returned for good. -/
theorem main_returned (returned : s.main = .stopping []) (step : s.step a = some s') :
    s'.main = .stopping [] := by
  rcases step_main step with same | ⟨-, polling⟩ | ⟨m, rest, -, stopping, -⟩ |
    ⟨m, rest, -, joining, -⟩
  · exact same.trans returned
  · cases returned.symm.trans polling
  · cases returned.symm.trans stopping
  · cases returned.symm.trans joining

/-- The module that is being joined has its flag set. -/
theorem Control.joining_flag (control : Control workersNumber s)
    (joining : s.main = .joining m rest) :
    m ∈ s.modulesArray ∧ s.stopThread m = true := by
  obtain ⟨joined, split, flags, -⟩ := control.joining m rest joining
  constructor
  · rw [← List.mem_reverse, split]
    exact List.mem_append_right _ List.mem_cons_self
  · rw [flags]
    exact List.mem_append_right _ (List.mem_singleton.mpr rfl)

/-! ## Fair schedules -/

/-- Every worker and the sender have their turns again and again. -/
structure Fair (workersNumber : ℕ) (sched : ℕ → ProgramAction) : Prop where
  worker : ∀ w < workersNumber, Runs.Recurs sched (· = .worker w)
  sender : Runs.Recurs sched (·.thread = some .thriftSender)

theorem Fair.thread (fair : Fair workersNumber sched) (control : Control workersNumber s)
    (mem : m ∈ s.modulesArray) : Runs.Recurs sched (·.thread = some m) := by
  cases m with
  | thriftSender => exact fair.sender
  | worker w =>
      obtain ⟨w', lt, eq⟩ := List.mem_map.mp (List.mem_of_ne_of_mem (by simp) mem)
      cases eq
      rw [List.mem_range, control.workers] at lt
      intro n
      obtain ⟨k, le, turn⟩ := fair.worker w lt n
      exact ⟨k, le, turn ▸ rfl⟩

/-- A schedule in which no worker gets stuck. -/
structure Free (workersNumber : ℕ) (s : Program) (sched : ℕ → ProgramAction) : Prop where
  running : ∀ n, Running workersNumber (Runs.exec step s sched n)
  free : ∀ n, ¬ (Runs.exec step s sched n).Stuck

theorem Free.alive (free : Free workersNumber s sched) (n : ℕ) :
    (Runs.exec step s sched n).process.terminated = false :=
  Bool.eq_false_of_not_eq_true fun ended => free.free n ((free.running n).ended ended)

theorem leadsTo_joining (free : Free workersNumber s sched)
    (stop : Runs.Recurs sched (· = .stop)) :
    Runs.LeadsTo (Runs.exec step s sched) (fun t => t.main = .stopping (m :: rest))
      (fun t => t.main = .joining m rest) := by
  refine Runs.leadsTo_of_turn stop (fun n stopping _ => ?_) fun n stopping _ turn => ?_
  · rcases Runs.exec_cases step s sched n with taken | passed
    · exact main_stopping stopping taken
    · exact .inr (passed ▸ stopping)
  · have taken : step (Runs.exec step s sched n) (sched n) = some
        { Runs.exec step s sched n with
          stopThread := Function.update (Runs.exec step s sched n).stopThread m true
          main := .joining m rest } := by
      rw [turn, Program.step, free.alive n]
      simp [stopping]
    rw [Runs.exec_succ taken]

/-- The thread of the module leaves its loop. -/
theorem leadsTo_stopped (free : Free workersNumber s sched) (fair : Fair workersNumber sched) :
    Runs.LeadsTo (Runs.exec step s sched) (fun t => t.main = .joining m rest)
      (fun t => t.main = .joining m rest ∧ t.Stopped m) := by
  intro n₀ joining₀
  have mem := ((free.running n₀).control.joining_flag joining₀).1
  have leads : Runs.LeadsTo (Runs.exec step s sched) (fun t => t.main = .joining m rest)
      (fun t => t.main = .joining m rest ∧ t.Stopped m) := by
    refine Runs.leadsTo_of_rank (turnsLeft · m) (fair.thread (free.running n₀).control mem)
      (fun n joining goes => ?_) fun n joining goes turn => ?_
    · obtain ⟨-, flag⟩ := (free.running n).control.joining_flag joining
      rcases Runs.exec_cases step s sched n with taken | passed
      · rcases main_joining joining taken with same | ⟨stopped, -⟩
        · refine .inr ⟨same, ?_⟩
          by_cases own : (sched n).thread = some m
          · exact Nat.le_of_lt (turnsLeft_lower flag (free.free (n + 1)) taken own)
          · exact Nat.le_of_eq (turnsLeft_other taken own)
        · exact absurd ⟨joining, stopped⟩ goes
      · rw [passed]
        exact .inr ⟨joining, Nat.le_refl _⟩
    · obtain ⟨mem, flag⟩ := (free.running n).control.joining_flag joining
      have running : ¬ (Runs.exec step s sched n).Stopped m :=
        fun stopped => goes ⟨joining, stopped⟩
      obtain ⟨t, taken⟩ := thread_isSome (free.running n) (free.free n) mem running turn
      rw [← Runs.exec_succ taken] at taken
      rcases main_joining joining taken with same | ⟨stopped, -⟩
      · exact .inr ⟨same, turnsLeft_lower flag (free.free (n + 1)) taken turn⟩
      · exact absurd stopped running
  exact leads n₀ joining₀

theorem leadsTo_joined (free : Free workersNumber s sched)
    (join : Runs.Recurs sched (· = .join)) :
    Runs.LeadsTo (Runs.exec step s sched) (fun t => t.main = .joining m rest ∧ t.Stopped m)
      (fun t => t.main = .stopping rest) := by
  refine Runs.leadsTo_of_turn join (fun n here _ => ?_) fun n here _ turn => ?_
  · obtain ⟨joining, stopped⟩ := here
    rcases Runs.exec_cases step s sched n with taken | passed
    · rcases main_joining joining taken with same | ⟨-, next⟩
      · exact .inr ⟨same, stopped_stays taken stopped⟩
      · exact .inl next
    · exact .inr (passed ▸ ⟨joining, stopped⟩)
  · obtain ⟨joining, stopped⟩ := here
    have taken : step (Runs.exec step s sched n) (sched n) =
        some { Runs.exec step s sched n with main := .stopping rest } := by
      rw [turn, Program.step, free.alive n]
      simp [joining, stopped]
    rw [Runs.exec_succ taken]

/-- The modules that are left are stopped, one after the other. -/
theorem leadsTo_returned (free : Free workersNumber s sched) (fair : Fair workersNumber sched)
    (stop : Runs.Recurs sched (· = .stop)) (join : Runs.Recurs sched (· = .join))
    (rest : List ProgramModule) :
    Runs.LeadsTo (Runs.exec step s sched) (fun t => t.main = .stopping rest)
      (fun t => t.main = .stopping []) := by
  induction rest with
  | nil => exact Runs.leadsTo_of_imp fun _ => id
  | cons m rest ih =>
      exact (leadsTo_joining free stop).trans
        ((leadsTo_stopped free fair).trans ((leadsTo_joined free join).trans ih))

/-- A worker that is stuck takes no further step that counts. -/
theorem stuck_stays {p : RadiusRawMsgPtr} (fails : p.decoded? = none)
    (there : s.workers[w]? = some (.decode p)) (step : s.step a = some s') :
    s'.workers[w]? = some (.decode p) := by
  rcases step_cases step with ⟨b, process, rfl, -, -, -, rfl⟩ | ⟨r, shared, rfl, -, rfl⟩ |
    ⟨rfl, -, rfl⟩ | ⟨m', rest, rfl, -, rfl⟩ | ⟨m', rest, rfl, -, -, rfl⟩ | ⟨w', rfl, worker⟩ |
    ⟨applId, now, sendThrows, rfl, sender⟩
  · exact there
  · exact there
  · exact there
  · exact there
  · exact there
  · by_cases same : w' = w
    · subst same
      rcases workerStep_decode there worker with ⟨-, rfl⟩ | ⟨msg, r, decoded, -⟩ |
        ⟨msg, decoded, -⟩
      · exact there
      · cases fails.symm.trans decoded
      · cases fails.symm.trans decoded
    · obtain ⟨-, -, -, -, ⟨next, workers⟩, -⟩ := workerStep_frame worker
      rw [workers, List.getElem?_set_ne same]
      exact there
  · rcases senderStep_cases sender with ⟨-, rfl⟩ | ⟨-, -, rfl⟩ | ⟨shared, -, -, rfl⟩ <;>
      exact there

/-- **When `stopModules` returns.** Once it has been called, and the threads have
their turns, it returns exactly if no worker comes to hold a message that does
not decode. -/
theorem stopModules_returns_iff
    (run : Runs.run step (init localEndpoint workersNumber workerQueueCapacity
      thriftQueueCapacity) acts = some s) (started : s.main ≠ .polling)
    (fair : Fair workersNumber sched) (stop : Runs.Recurs sched (· = .stop))
    (join : Runs.Recurs sched (· = .join)) :
    (∃ n, (Runs.exec step s sched n).main = .stopping []) ↔
      ∀ (n w : ℕ) (p : RadiusRawMsgPtr),
        (Runs.exec step s sched n).workers[w]? = some (.decode p) → p.decoded?.isSome = true := by
  have running : ∀ n, Running workersNumber (Runs.exec step s sched n) := by
    intro n
    obtain ⟨acts', reached⟩ := Runs.exec_reached sched run n
    exact running_of_run reached
  constructor
  · rintro ⟨n, returned⟩ k w p there
    by_contra fails
    rw [Option.not_isSome_iff_eq_none] at fails
    -- the worker is stuck for good, and the join has waited for it
    have stuck := Runs.exec_stays step s sched
      (I := fun t => t.workers[w]? = some (.decode p)) (fun _ _ _ => stuck_stays fails)
      (Nat.le_max_left k n) there
    have returned := Runs.exec_stays step s sched
      (I := fun t => t.main = .stopping []) (fun _ _ _ => main_returned)
      (Nat.le_max_right k n) returned
    obtain ⟨joined, all, -, stopped⟩ := (running (max k n)).control.stopping _ returned
    have lt := (List.getElem?_eq_some_iff.mp stuck).1
    have mem : ProgramModule.worker w ∈ joined := by
      rw [List.append_nil] at all
      rw [← all, List.mem_reverse]
      exact List.mem_cons_of_mem _ (List.mem_map.mpr ⟨w, List.mem_range.mpr lt, rfl⟩)
    cases stuck.symm.trans (stopped _ mem)
  · intro decodes
    have free : Free workersNumber s sched := by
      refine ⟨running, fun n => ?_⟩
      rintro ⟨w, p, there, fails⟩
      simpa [fails] using decodes n w p there
    have returns := leadsTo_returned free fair stop join
    cases at_main : s.main with
    | polling => exact absurd at_main started
    | stopping rest =>
        obtain ⟨n, -, returned⟩ := returns rest 0 at_main
        exact ⟨n, returned⟩
    | joining m rest =>
        obtain ⟨n, -, returned⟩ := ((leadsTo_stopped free fair).trans
          ((leadsTo_joined free join).trans (returns rest))) 0 at_main
        exact ⟨n, returned⟩

/-- One turn of each kind: workers, sender, main thread, timers. -/
def turnOf (i : ℕ) : ProgramAction :=
  if i % 6 = 0 then .worker (i / 6)
  else if i % 6 = 1 then .sender 7 1000 false
  else if i % 6 = 2 then .stop
  else if i % 6 = 3 then .join
  else if i % 6 = 4 then .expire (i / 6)
  else .poll (.env (.runHandler (i / 6)))

/-- A schedule in which everything has its turn again and again. -/
def everyTurn : ℕ → ProgramAction := Runs.dovetail turnOf

theorem recurs_everyTurn (i : ℕ) : Runs.Recurs everyTurn (· = turnOf i) :=
  Runs.recurs_dovetail turnOf i

theorem fair_everyTurn (workersNumber : ℕ) : Fair workersNumber everyTurn := by
  constructor
  · intro w _
    have turn : turnOf (6 * w) = .worker w := by
      rw [turnOf, if_pos (Nat.mul_mod_right 6 w), Nat.mul_div_cancel_left w (by decide)]
    exact turn ▸ recurs_everyTurn (6 * w)
  · intro n
    obtain ⟨k, le, turn⟩ := recurs_everyTurn 1 n
    exact ⟨k, le, turn ▸ rfl⟩

/-- SIGINT comes while a message waits. -/
theorem stopModules_returns_interrupted :
    ∃ s, Runs.run step (createModules radiusMonitor) (interruptedRun.take 12) = some s ∧
      s.main ≠ .polling ∧
      ((∃ n, (Runs.exec step s everyTurn n).main = .stopping []) ↔
        ∀ (n w : ℕ) (p : RadiusRawMsgPtr),
          (Runs.exec step s everyTurn n).workers[w]? = some (.decode p) →
            p.decoded?.isSome = true) := by
  have started : (Runs.run step (createModules radiusMonitor) (interruptedRun.take 12)).map
      (fun s => decide (s.main = .polling)) = some false := by
    decide +kernel
  obtain ⟨s, run, started⟩ := Option.map_eq_some_iff.mp started
  have started : s.main ≠ .polling := of_decide_eq_false started
  exact ⟨s, run, started, stopModules_returns_iff run started (fair_everyTurn _)
    (recurs_everyTurn 2) (recurs_everyTurn 3)⟩

end Program

end RadiusEventHandler
