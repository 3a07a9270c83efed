import GsnNode.HttpSession

/-! The root node: the UDP service and the HTTP service on one event loop, with one
table. A handler runs to its end before the next one begins. -/

set_option autoImplicit false

namespace GsnNode
open ByteWords MemoryRegion ProtocolHandler KeyedList

/-- What the handlers share, and what the loop waits for. -/
structure RootNode (V6 : Type) where
  table : NetspaceTable V6
  mRecv : Block recvSize
  /-- `async_receive_from` was started -/
  receiving : Bool
  /-- `async_accept` was started -/
  accepting : Bool
  /-- the number of sessions so far, which is the name of the next one -/
  accepted : Nat
  /-- the sessions that wait for `async_read_some` -/
  waiting : List Nat

/-- The operations that come to an end. Both sockets are IPv4. -/
inductive Event (V6 : Type) where
  | receiveError : Event V6
  | datagram (bytes : List UInt8) (sender : NetspaceIpv4) (env : Surroundings V6) : Event V6
  | acceptError : Event V6
  | connection : Event V6
  | readError (session : Nat) : Event V6
  /-- without a peer `remote_endpoint` throws -/
  | characters (session : Nat) (chunk : Text) (peer : Option NetspaceIpv4)
      (env : Surroundings V6) : Event V6

/-- What no client decides. -/
structure Circumstances where
  left : Leftover
  /-- behind `m_recv` or `m_data` -/
  beyond : Beyond
  mData : Block sessionSize
  memory : HexMemory
  /-- the socket takes the whole reply at once -/
  ready : Bool

inductive Recipient where
  | host (addr : NetspaceIpv4) : Recipient
  | session (name : Nat) : Recipient
  deriving DecidableEq

structure Sent where
  recipient : Recipient
  bytes : List UInt8

def Sent.session? (sent : Sent) : Option Nat :=
  match sent.recipient with
  | .session name => some name
  | .host _ => none

/-- What ends `ios.run()`. -/
inductive NodeStop where
  | handler (stop : Stop) : NodeStop
  /-- a `system_error` of a socket -/
  | socket : NodeStop

namespace RootNode
variable {V6 : Type}

/-- The constructors of the two services have started their first operations. -/
def start (mRecv : Block recvSize) : RootNode V6 := ⟨[],mRecv,true,true,0,[]⟩

def startRecv (node : RootNode V6) : RootNode V6 := { node with receiving := true }

def doAccept (node : RootNode V6) : RootNode V6 := { node with accepting := true }

/-- `http_session::start` of a new session. -/
def startSession (node : RootNode V6) : RootNode V6 :=
  { node with accepted := node.accepted + 1, waiting := node.accepted :: node.waiting }

/-- A session ends with its handler, which starts no other operation. -/
def endSession (node : RootNode V6) (session : Nat) : RootNode V6 :=
  { node with waiting := node.waiting.erase session }

/-- Only an operation that was started can come to an end. -/
def Enabled (node : RootNode V6) : Event V6 → Prop
  | .receiveError => node.receiving = true
  | .datagram bytes _ _ => node.receiving = true ∧ bytes.length ≤ recvSize
  | .acceptError | .connection => node.accepting = true
  | .readError session => session ∈ node.waiting
  | .characters session chunk _ _ =>
    session ∈ node.waiting ∧ chunk ≠ [] ∧ chunk.length ≤ sessionSize

/-- What a handler does to the operations that are waited for. -/
def advance (node : RootNode V6) : Event V6 → RootNode V6
  | .receiveError => { node with receiving := false }
  | .datagram _ _ _ => startRecv node
  | .acceptError => doAccept node
  | .connection => doAccept (startSession node)
  | .readError session | .characters session _ _ _ => endSession node session

def isRequest : Event V6 → Bool
  | .datagram _ _ _ | .characters _ _ _ _ => true
  | .receiveError | .acceptError | .connection | .readError _ => false

/-- The requests that came, in their order, and not one more. -/
def requests (events : List (Event V6 × Circumstances)) : List (Event V6 × Circumstances) :=
  events.filter fun p => isRequest p.1

theorem requests_snoc (events : List (Event V6 × Circumstances)) (p : Event V6 × Circumstances) :
    requests (events ++ [p]) = if isRequest p.1 then requests events ++ [p] else requests events := by
  rw [requests, List.filter_append]
  cases h : isRequest p.1 <;> simp [requests, h]

/-! ### Sessions -/

/-- The sessions that have been answered. -/
def answered (sent : List Sent) : List Nat := sent.filterMap Sent.session?

def isDatagram : Event V6 → Bool
  | .datagram _ _ _ => true
  | _ => false

/-- A session waits once, is answered once, and does not wait any more when it is. -/
structure Sessions (sent : List Sent) (now : RootNode V6) : Prop where
  waiting_nodup : now.waiting.Nodup
  waiting_lt : ∀ name ∈ now.waiting, name < now.accepted
  answered_nodup : (answered sent).Nodup
  answered_lt : ∀ name ∈ answered sent, name < now.accepted
  answered_over : ∀ name ∈ answered sent, name ∉ now.waiting

/-- Without its next operation a service gets no event any more. -/
structure Listening (events : List (Event V6 × Circumstances)) (now : RootNode V6) : Prop where
  accepting : now.accepting = true
  receiving : now.receiving = true ↔ ∀ p ∈ events, p.1 ≠ .receiveError
  deaf : ∀ before p after, events = before ++ p :: after → isDatagram p.1 = true →
    ∀ q ∈ before, q.1 ≠ .receiveError

theorem Sessions.quiet {sent : List Sent} {now : RootNode V6} (h : Sessions sent now)
    {event : Event V6} (hquiet : isRequest event = false) : Sessions sent (advance now event) := by
  cases event with
  | receiveError | acceptError => exact ⟨h.1,h.2,h.3,h.4,h.5⟩
  | connection =>
    have hfresh : now.accepted ∉ now.waiting := fun hmem =>
      Nat.lt_irrefl _ (h.waiting_lt _ hmem)
    refine ⟨List.nodup_cons.mpr ⟨hfresh,h.waiting_nodup⟩,fun name hname => ?_,h.answered_nodup,
      fun name hname => Nat.lt_succ_of_lt (h.answered_lt name hname),fun name hname hwaits => ?_⟩
    · rcases List.mem_cons.mp hname with rfl | hname
      · exact Nat.lt_succ_self _
      · exact Nat.lt_succ_of_lt (h.waiting_lt name hname)
    · rcases List.mem_cons.mp hwaits with rfl | hwaits
      · exact Nat.lt_irrefl _ (h.answered_lt _ hname)
      · exact h.answered_over name hname hwaits
  | readError session =>
    exact ⟨h.waiting_nodup.erase session,fun name hname => h.waiting_lt name (List.mem_of_mem_erase hname),
      h.answered_nodup,h.answered_lt,
      fun name hname hwaits => h.answered_over name hname (List.mem_of_mem_erase hwaits)⟩
  | datagram bytes sender env => contradiction
  | characters session chunk peer env => contradiction

/-- A request that is served, and where its reply goes. -/
structure Served (V6 : Type) where
  call : PacketCall V6
  recipient : Recipient

/-- The packet is made of what came and of what was in the buffer. -/
inductive Takes (mRecv : Block recvSize) (c : Circumstances) : Event V6 → Served V6 → Prop where
  | datagram {bytes : List UInt8} {sender : NetspaceIpv4} {env : Surroundings V6}
      {packet : DvspPacket} :
      DvspPacket.deserialise (received bytes mRecv.data c.beyond) = .ok packet →
        Takes mRecv c (.datagram bytes sender env)
          ⟨⟨env,c.left,packet,.v4 sender⟩,.host sender⟩
  | characters {session : Nat} {chunk : Text} {addr : NetspaceIpv4} {env : Surroundings V6}
      {packet : DvspPacket} :
      requestPacket c.memory (received chunk c.mData.data c.beyond) = .ok packet →
        Takes mRecv c (.characters session chunk (some addr) env)
          ⟨⟨env,c.left,packet,.v4 addr⟩,.session session⟩

/-- The handler of a session answers it, and the session is over. -/
theorem Sessions.answer {sent : List Sent} {now next : RootNode V6} (h : Sessions sent now)
    {event : Event V6} (henabled : now.Enabled event) {mRecv : Block recvSize} {c : Circumstances}
    {s : Served V6} (htakes : Takes mRecv c event s) {out : Sent}
    (hout : out.recipient = s.recipient) (hwaiting : next.waiting = (advance now event).waiting)
    (haccepted : next.accepted = (advance now event).accepted) : Sessions (sent ++ [out]) next := by
  have hanswered : answered (sent ++ [out]) = answered sent ++ out.session?.toList := by
    rw [answered, List.filterMap_append]
    cases hs : out.session? <;> simp [answered, hs]
  cases htakes with
  | datagram hpacket =>
    have hnone : out.session? = none := by rw [Sent.session?, hout]
    rw [hnone, Option.toList_none, List.append_nil] at hanswered
    have hwaiting' : next.waiting = now.waiting := hwaiting
    have haccepted' : next.accepted = now.accepted := haccepted
    refine ⟨?_,?_,?_,?_,?_⟩ <;> simp only [hanswered, hwaiting', haccepted']
    · exact h.waiting_nodup
    · exact h.waiting_lt
    · exact h.answered_nodup
    · exact h.answered_lt
    · exact h.answered_over
  | @characters session chunk addr env packet hpacket =>
    have hsome : out.session? = some session := by rw [Sent.session?, hout]
    rw [hsome, Option.toList_some] at hanswered
    have hwaits : session ∈ now.waiting := henabled.1
    have hwaiting' : next.waiting = now.waiting.erase session := hwaiting
    have haccepted' : next.accepted = now.accepted := haccepted
    have hfirst : session ∉ answered sent := fun hmem => h.answered_over session hmem hwaits
    refine ⟨?_,?_,?_,?_,?_⟩ <;> simp only [hanswered, hwaiting', haccepted']
    · exact h.waiting_nodup.erase session
    · exact fun name hname => h.waiting_lt name (List.mem_of_mem_erase hname)
    · exact List.nodup_append.mpr ⟨h.answered_nodup,List.nodup_singleton _,fun name hname name' hname' =>
        fun heq => hfirst (List.mem_singleton.mp hname' ▸ heq ▸ hname)⟩
    · intro name hname
      rcases List.mem_append.mp hname with hname | hname
      · exact h.answered_lt name hname
      · exact List.mem_singleton.mp hname ▸ h.waiting_lt session hwaits
    · intro name hname
      rcases List.mem_append.mp hname with hname | hname
      · exact fun hmem => h.answered_over name hname (List.mem_of_mem_erase hmem)
      · rw [List.mem_singleton.mp hname]
        exact h.waiting_nodup.not_mem_erase

theorem Listening.step {events : List (Event V6 × Circumstances)} {now : RootNode V6}
    (h : Listening events now) {event : Event V6} (henabled : now.Enabled event) (c : Circumstances)
    {next : RootNode V6} (haccepting : next.accepting = (advance now event).accepting)
    (hreceiving : next.receiving = (advance now event).receiving) :
    Listening (events ++ [(event,c)]) next := by
  have hall : (∀ p ∈ events ++ [(event,c)], p.1 ≠ .receiveError) ↔
      (∀ p ∈ events, p.1 ≠ .receiveError) ∧ event ≠ .receiveError := by
    simp only [List.mem_append, List.mem_singleton]
    constructor
    · exact fun hp => ⟨fun p hmem => hp p (.inl hmem),hp (event,c) (.inr rfl)⟩
    · intro hp p hmem
      rcases hmem with hmem | rfl
      · exact hp.1 p hmem
      · exact hp.2
  refine ⟨?_,?_,?_⟩
  · rw [haccepting]
    cases event <;> first | exact h.accepting | rfl
  · rw [hreceiving, hall, ← h.receiving]
    cases event with
    | receiveError => simp [advance]
    | datagram bytes sender env => simpa [advance, startRecv] using henabled.1
    | acceptError => simp [advance, doAccept]
    | connection => simp [advance, doAccept, startSession]
    | readError session => simp [advance, endSession]
    | characters session chunk peer env => simp [advance, endSession]
  · intro before p after heq hp
    rcases List.eq_nil_or_concat after with rfl | ⟨after,last,rfl⟩
    · obtain ⟨rfl,hlast⟩ := List.append_inj' heq rfl
      obtain rfl : (event,c) = p := List.singleton_inj.mp hlast
      cases event with
      | datagram bytes sender env => exact h.receiving.mp henabled.1
      | receiveError | acceptError | connection | readError | characters => contradiction
    · rw [List.concat_eq_append, ← List.cons_append, ← List.append_assoc] at heq
      obtain ⟨rfl,-⟩ := List.append_inj' heq rfl
      exact h.deaf before p after rfl hp

/-- In every state the names are distinct, the connections are accepted, and each session
has been answered at most once. -/
structure Consistent (events : List (Event V6 × Circumstances)) (sent : List Sent)
    (now : RootNode V6) : Prop where
  names : DistinctNames now.table
  sessions : Sessions sent now
  listening : Listening events now

section Handlers
variable [DecidableEq V6]

/-- The bytes to send, and the table after the call. -/
def perform (handler : Handler V6 (List UInt8)) (table : NetspaceTable V6) :
    Except NodeStop (List UInt8 × NetspaceTable V6) :=
  match handler table with
  | (.ok bytes,table') => .ok (bytes,table')
  | (.error stop,_) => .error (.handler stop)

def handle (c : Circumstances) (node : RootNode V6) :
    Event V6 → Except NodeStop (RootNode V6 × List Sent)
  | .receiveError => .ok ({ node with receiving := false },[])
  | .datagram bytes sender env => do
    let mRecv := received bytes node.mRecv.data c.beyond
    let reply ← perform (receive env c.left mRecv (.v4 sender)) node.table
    -- a reply that has to wait is sent out of a buffer that is released here
    if c.ready then
      .ok (startRecv { node with table := reply.2, mRecv := Block.ofList recvSize mRecv.bytes },
        [⟨.host sender,reply.1⟩])
    else .error (.handler .undefined)
  | .acceptError => .ok (doAccept node,[])
  | .connection => .ok (doAccept (startSession node),[])
  | .readError session => .ok (endSession node session,[])
  | .characters session chunk peer env => do
    let packet ← (requestPacket c.memory (received chunk c.mData.data c.beyond)).mapError .handler
    match peer with
    | none => .error .socket
    | some addr => do
      let reply ← perform (answer env c.left packet (.v4 addr)) node.table
      if c.ready then
        .ok (endSession { node with table := reply.2 } session,[⟨.session session,reply.1⟩])
      else .error .socket

/-- The events that the loop has handled, and what it has sent. -/
inductive Runs (node : RootNode V6) :
    List (Event V6 × Circumstances) → List Sent → RootNode V6 → Prop where
  | start : Runs node [] [] node
  | step {events : List (Event V6 × Circumstances)} {sent out : List Sent}
      {now next : RootNode V6} {event : Event V6} {c : Circumstances} :
      Runs node events sent now → now.Enabled event → handle c now event = .ok (next,out) →
        Runs node (events ++ [(event,c)]) (sent ++ out) next

/-! ### One event -/

theorem mapError_eq_ok {α : Type} {r : Call α} {a : α} :
    r.mapError NodeStop.handler = .ok a ↔ r = .ok a := by
  cases r <;> simp [Except.mapError]

theorem perform_answer {c : PacketCall V6} {table : NetspaceTable V6}
    {r : List UInt8 × NetspaceTable V6} :
    perform (answer c.env c.left c.packet c.addr) table = .ok r ↔
      ∃ reply, c.result table = .ok reply ∧ reply.serialise c.left.afterContent = .ok r.1 ∧
        r.2 = c.step table := by
  obtain ⟨bytes,table'⟩ := r
  unfold perform answer
  rw [Handler.bind_apply, PacketCall.result, PacketCall.step]
  cases hp : processPacket c.env c.left c.packet c.addr table with
  | mk result table₁ =>
    cases result with
    | error e => simp
    | ok reply =>
      cases hs : reply.serialise c.left.afterContent with
      | error e => simp [hs]
      | ok serial =>
        simp [hs, eq_comm]

theorem perform_receive {env : Surroundings V6} {left : Leftover} {mRecv : Region}
    {sender : NetspaceAddr V6} {table : NetspaceTable V6} {r : List UInt8 × NetspaceTable V6} :
    perform (receive env left mRecv sender) table = .ok r ↔
      ∃ packet, DvspPacket.deserialise mRecv = .ok packet ∧
        perform (answer env left packet sender) table = .ok r := by
  unfold perform
  rw [receive_eq, Handler.bind_apply]
  cases DvspPacket.deserialise mRecv <;> simp

/-- The reply is that of the call on the table, and goes to the one who asked. -/
structure Answers (s : Served V6) (table table' : NetspaceTable V6) (sent : Sent) : Prop where
  recipient : sent.recipient = s.recipient
  reply : ∃ reply, s.call.result table = .ok reply ∧
    reply.serialise s.call.left.afterContent = .ok sent.bytes
  table_eq : table' = s.call.step table

theorem answers_of_perform {s : Served V6} {table : NetspaceTable V6}
    {r : List UInt8 × NetspaceTable V6}
    (h : perform (answer s.call.env s.call.left s.call.packet s.call.addr) table = .ok r) :
    Answers s table r.2 ⟨s.recipient,r.1⟩ := by
  obtain ⟨reply,hresult,hserial,htable⟩ := perform_answer.mp h
  exact ⟨rfl,⟨reply,hresult,hserial⟩,htable⟩

/-- Everything that a handler can do when it returns. -/
theorem handle_cases {c : Circumstances} {node next : RootNode V6} {event : Event V6}
    {out : List Sent} (h : handle c node event = .ok (next,out)) :
    (isRequest event = false ∧ out = [] ∧ next = advance node event) ∨
      ∃ s sent mRecv, isRequest event = true ∧ out = [sent] ∧ Takes node.mRecv c event s ∧
        Answers s node.table next.table sent ∧
        next = { advance node event with table := next.table, mRecv := mRecv } := by
  cases event with
  | receiveError | acceptError | connection | readError session =>
    left
    obtain ⟨rfl,rfl⟩ := Prod.mk.inj (Except.ok.inj h)
    exact ⟨rfl,rfl,rfl⟩
  | datagram bytes sender env =>
    right
    obtain ⟨r,hr,h⟩ := bind_eq_ok.mp h
    obtain ⟨packet,hpacket,hr⟩ := perform_receive.mp hr
    split at h
    · obtain ⟨rfl,rfl⟩ := Prod.mk.inj (Except.ok.inj h)
      exact ⟨⟨⟨env,c.left,packet,.v4 sender⟩,.host sender⟩,_,_,rfl,rfl,.datagram hpacket,
        answers_of_perform hr,rfl⟩
    · contradiction
  | characters session chunk peer env =>
    right
    obtain ⟨packet,hpacket,h⟩ := bind_eq_ok.mp h
    cases peer with
    | none => contradiction
    | some addr =>
      obtain ⟨r,hr,h⟩ := bind_eq_ok.mp h
      split at h
      · obtain ⟨rfl,rfl⟩ := Prod.mk.inj (Except.ok.inj h)
        exact ⟨⟨⟨env,c.left,packet,.v4 addr⟩,.session session⟩,_,_,rfl,rfl,
          .characters (mapError_eq_ok.mp hpacket),answers_of_perform hr,rfl⟩
      · contradiction

/-! ### Every run serves one request after another -/

/-- A registry that takes the requests in this order, one at a time. -/
inductive Serves (table : NetspaceTable V6) :
    List (Served V6) → List Sent → NetspaceTable V6 → Prop where
  | start : Serves table [] [] table
  | next {served : List (Served V6)} {sent : List Sent} {now next : NetspaceTable V6}
      {s : Served V6} {out : Sent} :
      Serves table served sent now → Answers s now next out →
        Serves table (served ++ [s]) (sent ++ [out]) next

theorem Serves.table_eq {table now : NetspaceTable V6} {served : List (Served V6)}
    {sent : List Sent} (h : Serves table served sent now) :
    now = runCalls (served.map Served.call) table := by
  induction h with
  | start => rfl
  | next hserves hanswers ih =>
    rw [List.map_append, List.map_singleton, runCalls_snoc, ← ih]
    exact hanswers.table_eq

theorem Serves.recipients {table now : NetspaceTable V6} {served : List (Served V6)}
    {sent : List Sent} (h : Serves table served sent now) :
    sent.map Sent.recipient = served.map Served.recipient := by
  induction h with
  | start => rfl
  | next hserves hanswers ih =>
    simp only [List.map_append, List.map_singleton, ih, hanswers.recipient]

/-- The request was taken out of this event, with something in the buffer before it. -/
def TakenFrom (p : Event V6 × Circumstances) (s : Served V6) : Prop :=
  ∃ mRecv, Takes mRecv p.2 p.1 s

/-- The replies are those that a registry gives to the requests of the run, each of which
is served once and in the order in which it came. -/
theorem runs_serve {node now : RootNode V6} {events : List (Event V6 × Circumstances)}
    {sent : List Sent} (h : Runs node events sent now) :
    ∃ served, List.Forall₂ TakenFrom (requests events) served ∧
      Serves node.table served sent now.table ∧
      now.table = runCalls (served.map Served.call) node.table ∧
      sent.map Sent.recipient = served.map Served.recipient := by
  have hserved : ∃ served, List.Forall₂ TakenFrom (requests events) served ∧
      Serves node.table served sent now.table := by
    induction h with
    | start => exact ⟨[],.nil,.start⟩
    | @step events sent out now next event c _ _ hhandle ih =>
      obtain ⟨served,htaken,hserves⟩ := ih
      rcases handle_cases hhandle with ⟨hquiet,rfl,rfl⟩ |
        ⟨s,reply,mRecv,hrequest,rfl,htakes,hanswers,-⟩
      · have htable : (advance now event).table = now.table := by cases event <;> rfl
        refine ⟨served,?_,?_⟩
        · rw [requests_snoc, if_neg (by simp [hquiet])]
          exact htaken
        · rw [List.append_nil, htable]
          exact hserves
      · refine ⟨served ++ [s],?_,hserves.next hanswers⟩
        rw [requests_snoc, if_pos hrequest]
        exact List.rel_append htaken (.cons ⟨_,htakes⟩ .nil)
  obtain ⟨served,htaken,hserves⟩ := hserved
  exact ⟨served,htaken,hserves,hserves.table_eq,hserves.recipients⟩

/-- Who is answered for what comes. -/
def recipient? : Event V6 → Option Recipient
  | .datagram _ sender _ => some (.host sender)
  | .characters session _ _ _ => some (.session session)
  | .receiveError | .acceptError | .connection | .readError _ => none

theorem handle_recipient {c : Circumstances} {node next : RootNode V6} {event : Event V6}
    {out : List Sent} (h : handle c node event = .ok (next,out)) :
    out.map Sent.recipient = (recipient? event).toList := by
  rcases handle_cases h with ⟨hquiet,rfl,-⟩ | ⟨s,reply,mRecv,-,rfl,htakes,hanswers,-⟩
  · cases event <;> first | rfl | contradiction
  · rw [List.map_singleton, hanswers.recipient]
    cases htakes <;> rfl

/-- The memory of a quiet machine. -/
def calm : Circumstances := ⟨unmapped,fun _ => none,Block.zero sessionSize,zeroMemory,true⟩

def registration : Event Empty :=
  .datagram ((packetOf .gsnRegisterHost (registerFrame (ascii "b|a"))).header.bytes ++
    registerFrame (ascii "b|a")) localhostIpv4 isolated

/-- The registration of another host, which comes over the first session. -/
def posted : Event Empty :=
  .characters 0 (hexChunk (ascii "POST / HTTP/1.1")
    (((packetOf .gsnRegisterHost (registerFrame (ascii "d|c"))).header.bytes ++
      registerFrame (ascii "d|c")).flatMap hexField) []) (some (Block.ofList 4 [10,0,0,1])) isolated

def bothTransports : List (Event Empty × Circumstances) :=
  [(.connection,calm),(registration,calm),(posted,calm)]

theorem bothTransports_handled :
    ((handle calm (doAccept (startSession (start (Block.zero recvSize)))) registration >>=
      fun r => handle calm r.1 posted).toOption.map
        fun r => r.1.table.map fun n => (n.hostname,n.suid)) =
      some [(ascii "b",ascii "a"),(ascii "d",ascii "c")] := by
  decide +kernel

theorem runs_serve_both_transports :
    ∃ sent now, Runs (start (Block.zero recvSize)) bothTransports sent now ∧
      sent.map Sent.recipient = [.host localhostIpv4,.session 0] ∧
      (now.table.map fun n => (n.hostname,n.suid)) =
        [(ascii "b",ascii "a"),(ascii "d",ascii "c")] ∧
      ∃ served, List.Forall₂ TakenFrom (requests bothTransports) served ∧
        Serves [] served sent now.table ∧ now.table = runCalls (served.map Served.call) [] ∧
        sent.map Sent.recipient = served.map Served.recipient := by
  obtain ⟨⟨now,last⟩,hboth,hnames⟩ := Option.map_eq_some_iff.mp bothTransports_handled
  obtain ⟨⟨middle,first⟩,hfirst,hlast⟩ := bind_eq_ok.mp (toOption_eq_some.mp hboth)
  have hconnected : Runs (start (Block.zero recvSize)) [((.connection : Event Empty),calm)] []
      (doAccept (startSession (start (Block.zero recvSize)))) := Runs.start.step rfl rfl
  have hready : (doAccept (startSession (start (Block.zero recvSize)))).Enabled registration :=
    ⟨rfl,by decide +kernel⟩
  have hregistered := hconnected.step hready hfirst
  have hwaiting : middle.waiting = [0] := by
    rcases handle_cases hfirst with ⟨hquiet,-⟩ | ⟨s,reply,mRecv,-,-,-,-,hnext⟩
    · exact absurd hquiet Bool.noConfusion
    · rw [hnext]
      rfl
  have henabled : middle.Enabled posted :=
    ⟨by rw [hwaiting]; exact List.mem_singleton_self 0,by decide +kernel,by decide +kernel⟩
  have hrun : Runs (start (Block.zero recvSize)) bothTransports ([] ++ first ++ last) now :=
    hregistered.step henabled hlast
  refine ⟨_,now,hrun,?_,hnames,runs_serve hrun⟩
  rw [List.nil_append, List.map_append, handle_recipient hfirst, handle_recipient hlast]
  rfl

/-! ### What no order of events can break -/

theorem Consistent.step {events : List (Event V6 × Circumstances)} {sent out : List Sent}
    {now next : RootNode V6} (h : Consistent events sent now) {event : Event V6}
    (henabled : now.Enabled event) {c : Circumstances} (hhandle : handle c now event = .ok (next,out)) :
    Consistent (events ++ [(event,c)]) (sent ++ out) next := by
  rcases handle_cases hhandle with ⟨hquiet,rfl,rfl⟩ | ⟨s,reply,mRecv,-,rfl,htakes,hanswers,hnext⟩
  · have htable : (advance now event).table = now.table := by cases event <;> rfl
    rw [List.append_nil]
    exact ⟨htable ▸ h.names,h.sessions.quiet hquiet,h.listening.step henabled c rfl rfl⟩
  · refine ⟨?_,?_,?_⟩
    · rw [hanswers.table_eq]
      exact h.names.step s.call
    · exact h.sessions.answer henabled htakes hanswers.recipient (by rw [hnext]) (by rw [hnext])
    · exact h.listening.step henabled c (by rw [hnext]) (by rw [hnext])

end Handlers
end RootNode
end GsnNode
