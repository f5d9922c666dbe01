import RadiusEventHandler.CommandLine
import RadiusEventHandler.Settlement
import RadiusEventHandler.TextArchive

/-!
# From the command line to the Thrift server (`main`)

`main` reads the configuration, makes the sender with the endpoint of the Thrift
server, binds the socket of the receiver and starts the threads. Each round of
the sender that gets a record stamps it with the application id, and sends one
datagram with the serialised structure.

What the Thrift server gets this way is put together from all parts: whoever
reads the datagrams as archives has the attributes of accepted messages again,
under the id that was given last.
-/

namespace RadiusEventHandler

open TextArchive

/-- What `main` has from the system and from the socket library; `none` where
an exception is thrown. `address::from_string` gets texts that `inet_pton` has
taken for IPv4 addresses. -/
structure System where
  inetPton : CString → Option UInt32
  fromString : StdString → Option UInt32
  openSocket : UInt16 → Bool
  bindSocket : Endpoint → Option Endpoint

/-- A running program, with the datagrams its sender has sent. -/
structure Session where
  config : Configuration
  remoteEndpoint : Endpoint
  program : Program
  datagrams : List (Endpoint × List UInt8)

/-- The port of the sender's own socket. -/
def senderPort : UInt16 := 5555

/-- `main` up to its loop, on the arguments behind the name of the program;
`none` where it exits. -/
def main (sys : System) (args : List CString) (c : Configuration) : Option Session :=
  match getConfigFromProgramOptions sys.inetPton args c with
  | (false, _) => none
  | (true, config) =>
      if sys.openSocket senderPort then do
        let thriftIp ← sys.fromString config.thriftIpAddr
        let ownIp ← sys.fromString config.ownIpaddr
        let localEndpoint ← sys.bindSocket ⟨ownIp, config.ownPort⟩
        return {
          config
          remoteEndpoint := ⟨thriftIp, config.thriftPort⟩
          program := .createModules localEndpoint
          datagrams := [] }
      else none

/-- `plainStructToSend`, when there is a record in the output queue. -/
def Shared.plainStructToSend (s : Shared) (applId : UInt16) (now : UInt64) :
    Option PlainThriftStruct :=
  match s.outputQueue.tryPop with
  | some (some r, _) =>
      some (fillPlainThriftStructure (((s.thriftStructs r).setApplId applId).setTimeStamp now))
  | some (none, _) => none
  | none => none

namespace Session

variable {γ : Type}

/-- What a turn of the sender gives to the socket. -/
def toSend (s : Session) (now : UInt64) : List PlainThriftStruct :=
  if s.program.sender = .tryPop then
    (s.program.process.shared.plainStructToSend s.config.applId now).toList
  else []

/-- A step of the program. The sender has the id of the configuration. -/
def step (oa : TextOarchive γ) (s : Session) (a : ProgramAction) : Option Session :=
  match a with
  | .sender applId now sendThrows =>
      if applId = s.config.applId then
        (s.program.step (.sender applId now sendThrows)).map fun program =>
          { s with
            program
            datagrams := s.datagrams ++
              if sendThrows then []
              else (s.toSend now).map fun plain => (s.remoteEndpoint, sendBuf oa plain) }
      else none
  | a => (s.program.step a).map fun program => { s with program }

variable {s s' s₀ : Session} {a : ProgramAction} {acts : List ProgramAction}
  {oa : TextOarchive γ}

/-! ## What a step can do -/

theorem step_cases (step : s.step oa a = some s') :
    (∃ now sendThrows, a = .sender s.config.applId now sendThrows ∧
      ∃ program, s.program.step a = some program ∧
        s' = { s with
          program
          datagrams := s.datagrams ++
            if sendThrows then []
            else (s.toSend now).map fun plain => (s.remoteEndpoint, sendBuf oa plain) }) ∨
    (a.thread ≠ some .thriftSender ∧
      ∃ program, s.program.step a = some program ∧ s' = { s with program }) := by
  cases a with
  | sender applId now sendThrows =>
      simp only [Session.step] at step
      split at step
      · rename_i same
        subst same
        obtain ⟨program, next, rfl⟩ := Option.map_eq_some_iff.mp step
        exact .inl ⟨now, sendThrows, rfl, program, next, rfl⟩
      · cases step
  | _ =>
      obtain ⟨program, next, rfl⟩ := Option.map_eq_some_iff.mp step
      refine .inr ⟨?_, program, next, rfl⟩
      rintro ⟨⟩

/-- A run of a session is a run of its program. -/
theorem run_program (run : Runs.run (step oa) s₀ acts = some s) :
    Runs.run Program.step s₀.program acts = some s.program := by
  induction acts using List.reverseRecOn generalizing s with
  | nil =>
      cases run
      rfl
  | append_singleton acts a ih =>
      obtain ⟨t, before, last⟩ := Runs.run_concat_eq_some.mp run
      refine Runs.run_concat_eq_some.mpr ⟨t.program, ih before, ?_⟩
      rcases step_cases last with ⟨now, sendThrows, -, program, next, rfl⟩ |
        ⟨-, program, next, rfl⟩
      · exact next
      · exact next

theorem sends_plainStruct {s u : Shared} {applId : UInt16} {now : UInt64} {sendThrows : Bool}
    (step : s.sendThriftStructure applId now sendThrows = some u) :
    u.plainStructs = s.plainStructs ++ (s.plainStructToSend applId now).toList ∧
      u.thriftStructsSent = s.thriftStructsSent +
        if sendThrows then 0 else (s.plainStructToSend applId now).toList.length := by
  unfold Shared.sendThriftStructure at step
  unfold Shared.plainStructToSend
  split at step
  · cases step
  · rename_i pop
    cases step
    rw [pop]
    exact ⟨(List.append_nil _).symm, by simp⟩
  · rename_i pop
    cases step
    rw [pop]
    refine ⟨rfl, ?_⟩
    cases sendThrows
    · rfl
    · exact (add_zero _).symm

/-- A turn of the sender in a session. -/
theorem sender_sends {now : UInt64} {sendThrows : Bool} {program : Program}
    (next : s.program.step (.sender s.config.applId now sendThrows) = some program) :
    program.process.shared.plainStructs =
        s.program.process.shared.plainStructs ++ s.toSend now ∧
      program.process.shared.thriftStructsSent = s.program.process.shared.thriftStructsSent +
        if sendThrows then 0 else (s.toSend now).length := by
  have turn : s.program.senderStep s.config.applId now sendThrows = some program := by
    rcases Program.step_cases next with ⟨_, _, eq, -⟩ | ⟨_, _, eq, -⟩ | ⟨eq, -⟩ | ⟨_, _, eq, -⟩ |
      ⟨_, _, eq, -⟩ | ⟨_, eq, -⟩ | ⟨_, _, _, eq, turn⟩
    all_goals cases eq
    exact turn
  rcases Program.senderStep_cases turn with ⟨there, rfl⟩ | ⟨there, empty, rfl⟩ |
    ⟨shared, there, send, rfl⟩
  · have idle : s.toSend now = [] := by
      rw [toSend, there]
      rfl
    rw [idle]
    exact ⟨(List.append_nil _).symm, by simp⟩
  · have idle : s.toSend now = [] := by
      rw [toSend, if_pos there, Shared.plainStructToSend, BoundedQueue.tryPop_eq_none.mpr empty]
      rfl
    rw [idle]
    exact ⟨(List.append_nil _).symm, by simp⟩
  · rw [toSend, if_pos there]
    exact sends_plainStruct send

/-! ## The datagrams of a run -/

/-- The datagrams are structures the sender made, in their order and with the
id of the configuration, and as many as it has counted. -/
structure Collects (oa : TextOarchive γ) (s₀ s : Session) : Prop where
  config : s.config = s₀.config
  remoteEndpoint : s.remoteEndpoint = s₀.remoteEndpoint
  applId : ∀ plain ∈ s.program.process.shared.plainStructs, plain.applId = s₀.config.applId
  sent : ∃ plains : List PlainThriftStruct,
    plains.Sublist s.program.process.shared.plainStructs ∧
    s.datagrams = plains.map (fun plain => (s₀.remoteEndpoint, sendBuf oa plain)) ∧
    s.program.process.shared.thriftStructsSent = plains.length

theorem toSend_applId {now : UInt64} {plain : PlainThriftStruct} (mem : plain ∈ s.toSend now) :
    plain.applId = s.config.applId := by
  unfold toSend at mem
  split at mem
  · unfold Shared.plainStructToSend at mem
    split at mem
    · rw [Option.toList_some, List.mem_singleton] at mem
      rw [mem]
      rfl
    · cases mem
    · cases mem
  · cases mem

theorem Collects.step (collects : Collects oa s₀ s) (step : s.step oa a = some s') :
    Collects oa s₀ s' := by
  obtain ⟨config, remote, applId, plains, among, datagrams, count⟩ := collects
  rcases step_cases step with ⟨now, sendThrows, rfl, program, next, rfl⟩ |
    ⟨other, program, next, rfl⟩
  · obtain ⟨made, counted⟩ := sender_sends next
    refine ⟨config, remote, fun plain mem => ?_, ?_⟩
    · rw [made] at mem
      rcases List.mem_append.mp mem with old | new
      · exact applId plain old
      · rw [toSend_applId new, config]
    · cases sendThrows with
      | true =>
          refine ⟨plains, ?_, ?_, ?_⟩
          · rw [made]
            exact among.trans (List.sublist_append_left _ _)
          · exact (List.append_nil _).trans datagrams
          · rw [counted, count]
            exact add_zero _
      | false =>
          refine ⟨plains ++ s.toSend now, ?_, ?_, ?_⟩
          · rw [made]
            exact among.append_right _
          · rw [List.map_append, ← datagrams, ← remote]
            rfl
          · rw [counted, count, List.length_append, Nat.cast_add]
            rfl
  · obtain ⟨made, counted, -⟩ := Program.sender_other next other
    refine ⟨config, remote, ?_, plains, ?_, datagrams, ?_⟩
    · rw [made]
      exact applId
    · rw [made]
      exact among
    · rw [counted, count]

end Session

/-! ## What `main` starts -/

/-- A text names an endpoint: its address and its port, cut to 16 bits. -/
def EndpointOf (sys : System) (text : StdString) (e : Endpoint) : Prop :=
  ∃ ip port addr, Address sys.inetPton text ip port addr ∧
    sys.fromString ip.bytes = some e.address ∧ e.port = toUnsignedShort port

open Options in
/-- The command line, read to its end, asks for no help and gives this id and
the texts of these endpoints last. -/
def AsksFor (sys : System) (args : List CString) (id : UInt16) (own thrift : Endpoint) : Prop :=
  ∃ settings rest ownText thriftText, CommandLine args settings rest ∧ Ended rest ∧
    Setting.help ∉ settings ∧ (ids settings).getLast? = some id ∧
    (ownAddrs settings).getLast? = some ownText ∧
    (thriftAddrs settings).getLast? = some thriftText ∧
    EndpointOf sys ownText own ∧ EndpointOf sys thriftText thrift

theorem main_eq_some {sys : System} {args : List CString} {c : Configuration} {s₀ : Session}
    (started : main sys args c = some s₀) :
    ∃ id own thrift localEndpoint, AsksFor sys args id own thrift ∧
      sys.bindSocket own = some localEndpoint ∧ s₀.config.applId = id ∧
      s₀.remoteEndpoint = thrift ∧ s₀.program = .createModules localEndpoint ∧
      s₀.datagrams = [] := by
  unfold main at started
  split at started
  · cases started
  · rename_i config accepted
    split at started
    · obtain ⟨thriftIp, thriftFrom, started⟩ := Option.bind_eq_some_iff.mp started
      obtain ⟨ownIp, ownFrom, started⟩ := Option.bind_eq_some_iff.mp started
      obtain ⟨localEndpoint, bound, started⟩ := Option.bind_eq_some_iff.mp started
      cases started
      have ret : (getConfigFromProgramOptions sys.inetPton args c).1 = true := by rw [accepted]
      obtain ⟨id, own, thrift, given⟩ := gives_of_getConfig ret
      obtain ⟨own_free, thrift_free⟩ := given.nul_free
      obtain ⟨⟨_, _, addr, own_takes⟩, _, _, addr', thrift_takes⟩ := takes_of_getConfig given ret
      rw [getConfig_of_takes given own_takes thrift_takes] at accepted
      obtain ⟨ip, port, rfl, rfl, own_address⟩ := address_of_takes own_free own_takes
      obtain ⟨ip', port', rfl, rfl, thrift_address⟩ := address_of_takes thrift_free thrift_takes
      obtain ⟨settings, rest, reads, ended, no_help, id_last, own_last, thrift_last⟩ :=
        gives_iff.mp given
      cases (Prod.mk.inj accepted).2
      exact ⟨id, ⟨ownIp, toUnsignedShort port⟩, ⟨thriftIp, toUnsignedShort port'⟩, localEndpoint,
        ⟨settings, rest, own, thrift, reads, ended, no_help, id_last, own_last, thrift_last,
          ⟨ip, port, addr, own_address, ownFrom, rfl⟩,
          ⟨ip', port', addr', thrift_address, thriftFrom, rfl⟩⟩, bound, rfl, rfl, rfl, rfl⟩
    · cases started

/-! ## What the Thrift server gets -/

/-- The datagrams go to the Thrift server, who reads these structures in them.
Each has the id and is the report of accepted messages, no two of the same one;
what is accepted are datagrams that the receiver admits, in their order. -/
structure Collected {γ : Type} (ia : TextIarchive γ) (id : UInt16)
    (thrift localEndpoint : Endpoint) (arrivals : List Arrival) (s : Session)
    (plains : List PlainThriftStruct) (reports : List Report) : Prop where
  destination : ∀ datagram ∈ s.datagrams, datagram.1 = thrift
  restored : ∀ blank, (s.datagrams.map fun datagram => restoreThrift ia blank datagram.2) =
    plains.map fun plain => some (plain, [])
  counted : s.program.process.shared.thriftStructsSent = plains.length
  applId : ∀ plain ∈ plains, plain.applId = id
  reported : plains.map PlainThriftStruct.lists = reports.map Report.lists
  sound : ∀ rep ∈ reports, rep.Sound
  once : ((reports.flatMap Report.messages).map RadiusRawMsgPtr.id).Nodup
  accepted : ∀ p ∈ reports.flatMap Report.messages, p ∈ s.program.process.accepted
  admitted : (s.program.process.accepted.map RadiusRawMsgPtr.msg).Sublist
    ((arrivals.filter (Process.Admits localEndpoint ·)).map (Process.admittedMsg localEndpoint))

/-- **From the command line to the Thrift server.** Whatever the threads do once
`main` has started them, the endpoint named last as the Thrift server's gets
reports of the datagrams that came in at the socket of the own address. -/
theorem session_collected {γ : Type} {ends : List UInt8 → Prop} {oa : TextOarchive γ}
    {ia : TextIarchive γ} (reads : Reads ends oa ia) {sys : System} {args : List CString}
    {c : Configuration} {s₀ s : Session} {acts : List ProgramAction}
    (started : main sys args c = some s₀)
    (run : Runs.run (Session.step oa) s₀ acts = some s) :
    ∃ id own thrift localEndpoint, AsksFor sys args id own thrift ∧
      sys.bindSocket own = some localEndpoint ∧
      ∃ plains reports, Collected ia id thrift localEndpoint
        (acts.filterMap ProgramAction.arrival) s plains reports := by
  obtain ⟨id, own, thrift, localEndpoint, asks, bound, applId, remote, program, nothing⟩ :=
    main_eq_some started
  have start : Session.Collects oa s₀ s₀ := by
    refine ⟨rfl, rfl, ?_, [], ?_, nothing, ?_⟩ <;> rw [program]
    · intro plain mem
      cases mem
    · exact List.Sublist.slnil
    · rfl
  have collects : Session.Collects oa s₀ s := Runs.invariant_of_step
    (I := Session.Collects oa s₀) start (fun _ _ _ collects step => collects.step step) run
  have steps := Session.run_program run
  rw [program] at steps
  obtain ⟨-, -, ids, plains, among, datagrams, count⟩ := collects
  obtain ⟨reports, lists, sound, once, accepted⟩ := Program.exists_reports steps among
  refine ⟨id, own, thrift, localEndpoint, asks, bound, plains, reports, ?_, ?_, count, ?_, lists,
    sound, once, accepted, (Program.accepts_arrivals steps).accepted⟩
  · intro datagram mem
    rw [datagrams] at mem
    obtain ⟨plain, -, rfl⟩ := List.mem_map.mp mem
    exact remote
  · intro blank
    rw [datagrams, List.map_map]
    apply List.map_congr_left
    intro plain _
    exact restoreThrift_sendBuf reads plain blank
  · intro plain mem
    rw [ids plain (among.subset mem), applId]

/-- All calls succeed, on dotted addresses. -/
def plainSystem : System where
  inetPton := dottedQuad
  fromString text := dottedQuad text.cStr
  openSocket _ := true
  bindSocket := some

/-- A request and its response are handled by two workers, and their record is
sent. -/
def sessionRun : List ProgramAction :=
  [.poll (.receive ([4, 103, 0, 20] ++ List.replicate 16 0, radiusClient)),
    .poll (.receive ([5, 103, 0, 20] ++ List.replicate 16 0, radiusClient)),
    .worker 0, .worker 0, .worker 0, .worker 0, .worker 0, .worker 1, .worker 1, .worker 1,
    .sender 1 1000 false, .sender 1 1000 false]

theorem session_collected_plain :
    ∃ s₀ s, main plainSystem plainArgs (.new 0 0) = some s₀ ∧
      Runs.run (Session.step textOarchive) s₀ sessionRun = some s ∧ s.datagrams.length = 1 ∧
      ∃ id own thrift localEndpoint, AsksFor plainSystem plainArgs id own thrift ∧
        plainSystem.bindSocket own = some localEndpoint ∧
        ∃ plains reports, Collected textIarchive id thrift localEndpoint
          (sessionRun.filterMap ProgramAction.arrival) s plains reports := by
  have facts : ((main plainSystem plainArgs (.new 0 0)).bind fun s₀ =>
      (Runs.run (Session.step textOarchive) s₀ sessionRun).map fun s => s.datagrams.length) =
        some 1 := by
    decide +kernel
  obtain ⟨s₀, started, facts⟩ := Option.bind_eq_some_iff.mp facts
  obtain ⟨s, run, one⟩ := Option.map_eq_some_iff.mp facts
  exact ⟨s₀, s, started, run, one, session_collected TextArchive.textArchive_reads started run⟩

end RadiusEventHandler
