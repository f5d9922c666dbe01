import RadiusEventHandler.Liveness

/-!
# Every accepted message is handled

As long as the program is not stopped and every message decodes, a worker that
has its turn again and again comes to every message of its queue: the position
in the queue is the rank while the message waits, the place of the worker in
its loop when it has been popped.
-/

namespace RadiusEventHandler

namespace Program

variable {s s' : Program} {a : ProgramAction} {w i : ℕ} {p : RadiusRawMsgPtr}
  {acts : List ProgramAction} {sched : ℕ → ProgramAction}
  {localEndpoint : Endpoint} {workersNumber workerQueueCapacity thriftQueueCapacity : ℕ}

/-! ## From the queue to the worker -/

/-- A schedule in which nothing stops the program. -/
structure Serving (workersNumber : ℕ) (s : Program) (sched : ℕ → ProgramAction) : Prop
    extends Free workersNumber s sched where
  polling : ∀ n, (Runs.exec step s sched n).main = .polling

variable {n : ℕ}

theorem Serving.flag (serving : Serving workersNumber s sched) (n : ℕ) (m : ProgramModule) :
    (Runs.exec step s sched n).stopThread m = false :=
  (serving.running n).control.polling (serving.polling n) m

end Program

end RadiusEventHandler
