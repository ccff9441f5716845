import Mathlib.Data.Rat.Floor
import VeloBus.ServiceModel

/-! A cluster client: its nodes with the clients it opens to them, the services it registers on them, its
requests and its health ticks. A step is what runs between two awaits, with the observers of a client that it
closes, and takes no time. A step that waits for several promises may also come before them, unless its guard
says otherwise. The sockets, the brokers, the clock, the random numbers and the callers are the labels. -/

namespace VeloBus.Service

/-- `close` of a service or of its client. -/
def State.close (s : State) : State :=
  if s.phase = .opening then { s with child := s.child.fail (.connectionClosed Client.closedMessage) }
  else s.stop .closed

end VeloBus.Service

namespace VeloBus.Cluster

open Client (Failure Value)

/-- What the promises of a node's client resolve with: nothing, or the payload of a response. -/
abbrev Reply : Type := Option Bytes

/-- The `parse` of `request`. -/
def responseParser : Client.Parser Reply where
  run response := do
    let (payload, reader) ← Client.Reader.payload response
    Client.Reader.end reader
    return some payload
  protocol _ := .bind (Client.Reader.payload_protocol _) fun _ =>
    .bind (Client.Reader.end_protocol _) fun _ => .ok _

/-- The `parse` of `ping`. -/
def pingParser : Client.Parser Reply where
  run response := do
    Client.Reader.end response
    return none
  protocol _ := .bind (Client.Reader.end_protocol _) fun _ => .ok _

structure Endpoint where
  id : Text
  host : Value
  port : Value
  token : Value
deriving DecidableEq, Repr

/-- The options that the constructor keeps. -/
structure Options where
  brokers : List Endpoint
  timeoutMs : Nat
  healthIntervalMs : Nat
  reconnectMinMs : Nat
  reconnectMaxMs : Nat
  maxPending : Nat
deriving DecidableEq, Repr

/-- How far `connectNode` is: in `Client.connect`, which may throw before it makes a client, or on its way to
`finally`. -/
inductive Dial where
  | dialling (client : Nat)
  | invalid (reason : Failure)
  | ending
deriving DecidableEq, Repr

structure Connecting where
  attempt : Nat
  dial : Dial
deriving DecidableEq, Repr

structure NodeState where
  endpoint : Endpoint
  client : Option Nat
  connecting : Option Connecting
  pending : Int
  failures : Nat
  retryAt : ℚ
  lastError : Option Failure
  /-- The client whose failure still retires the node. -/
  unsubscribe : Option Nat
deriving DecidableEq, Repr

/-- A client that was opened for a node. -/
structure Connection where
  node : Nat
  state : Client.State Reply

/-- A service on the client of a node. -/
structure Handle where
  service : Nat
  node : Nat
  parent : Nat
  epoch : Nat
  setup : Service.Setup
  state : Service.State

/-- An operation of `attach`: the handle that `client.handle` works on, if it made one. -/
structure Attaching where
  client : Nat
  epoch : Nat
  handle : Option Nat
  ended : Bool
deriving DecidableEq, Repr

structure ClusterService where
  route : Value
  options : Client.HandleOptions
  stopped : Bool
  handles : Table Nat Nat
  attaching : Table Nat Attaching
  retryAt : Table Nat ℚ
  epochs : Table Nat Nat

/-- A request or a ping on its way: the promise of the client, or what was thrown instead. -/
structure Attempt where
  node : Nat
  client : Nat
  promise : Except Failure Nat

structure Request where
  route : Value
  snapshot : Value
  deadline : ℚ
  tried : List Nat
  lastError : Option Failure

inductive Rejection where
  | failure (reason : Failure)
  | unavailable (message : String)
  | ambiguous (brokerId : Text) (cause : Failure)
deriving DecidableEq, Repr

inductive Answer where
  | response (value : Reply)
  | rejected (reason : Rejection)
deriving DecidableEq, Repr

/-- Where `ClusterClient.connect` is. -/
inductive Phase where
  | connecting
  | ready
  | refused
deriving DecidableEq, Repr

/-- What `close` waits for: the clients and the services it found, the attempts it found, the tick. -/
inductive Closing where
  | clients (services : List Nat)
  | connecting (attempts : List Nat)
  | ticking
  | closed
deriving DecidableEq, Repr

structure State where
  nodes : List NodeState
  /-- Every client opened for a node, every service on one and every registration, in order. -/
  connections : List Connection
  handles : List Handle
  registrations : List ClusterService
  services : List Nat
  /-- The registrations that `handle` still waits for. -/
  registering : List Nat
  pending : Int
  cursor : Nat
  phase : Phase
  timer : Bool
  ticking : Bool
  stopped : Bool
  closing : Option Closing
  /-- The requests past admission and the pings, with what they wait for. -/
  requests : Table Nat (Request × Attempt)
  pings : Table Nat Attempt
  attempts : Nat
  epoch : Nat
  called : Nat
  answers : List (Nat × Answer)

namespace State

def new (options : Options) : State where
  nodes := options.brokers.map fun endpoint => ⟨endpoint, none, none, 0, 0, 0, none, none⟩
  connections := []
  handles := []
  registrations := []
  services := []
  registering := []
  pending := 0
  cursor := 0
  phase := .connecting
  timer := false
  ticking := false
  stopped := false
  closing := none
  requests := ∅
  pings := ∅
  attempts := 0
  epoch := 0
  called := 0
  answers := []

def modifyNode (n : Nat) (f : NodeState → NodeState) (s : State) : State := { s with nodes := s.nodes.modify n f }

def modifyService (v : Nat) (f : ClusterService → ClusterService) (s : State) : State :=
  { s with registrations := s.registrations.modify v f }

/-- A client that was made and is not closed. -/
def isOpen (s : State) (c : Nat) : Bool :=
  match s.connections[c]? with
  | none => false
  | some connection => !connection.state.closed

/-- `node.client && !node.client.isClosed` -/
def connected (s : State) (n : Nat) : Bool :=
  match s.nodes[n]? with
  | none => false
  | some node =>
    match node.client with
    | none => false
    | some c => s.isOpen c

/-! ### Closing -/

def closeHandle (h : Nat) (s : State) : State :=
  { s with handles := s.handles.modify h fun handle => { handle with state := handle.state.close } }

/-- The part of `fail` that closes the services of a client. -/
def closeChildren (c : Nat) (s : State) : State :=
  { s with handles := s.handles.map fun handle =>
    if handle.parent = c then { handle with state := handle.state.close } else handle }

def setConnection (c : Nat) (state : Client.State Reply) (s : State) : State :=
  { s with connections := s.connections.modify c fun connection => { connection with state := state } }

/-- `close` of a client that no node listens to. -/
def closeClient (c : Nat) (s : State) : State :=
  match s.connections[c]? with
  | none => s
  | some connection =>
    if connection.state.closed then s
    else (s.setConnection c (connection.state.fail (.connectionClosed Client.closedMessage))).closeChildren c

def detach (n v : Nat) (s : State) : State :=
  match s.registrations[v]? with
  | none => s
  | some service =>
    let s := s.modifyService v fun service =>
      { service with epochs := service.epochs.erase n, handles := service.handles.erase n }
    match service.handles.lookup n with
    | none => s
    | some h => s.closeHandle h

def detachAll (n : Nat) (s : State) : State := s.services.foldl (fun s v => s.detach n v) s

def retire (options : Options) (now : ℚ) (n c : Nat) (error : Failure) (s : State) : State :=
  match s.nodes[n]? with
  | none => s
  | some node =>
    if node.client ≠ some c then s
    else ((s.modifyNode n fun node => { node with
      unsubscribe := none
      client := none
      lastError := some error
      retryAt := now + options.reconnectMinMs }).detachAll n).closeClient c

/-- The observer of a node whose client has failed. -/
def notify (options : Options) (now : ℚ) (c : Nat) (s : State) : State :=
  match s.connections[c]? with
  | none => s
  | some connection =>
    match s.nodes[connection.node]? with
    | none => s
    | some node =>
      if node.unsubscribe = some c then s.retire options now connection.node c connection.state.closeReason else s

/-- A client has moved on; when it failed, its services and its node follow. -/
def update (options : Options) (now : ℚ) (c : Nat) (state : Client.State Reply) (s : State) : State :=
  match s.connections[c]? with
  | none => s
  | some connection =>
    if connection.state.closed = false ∧ state.closed then
      ((s.setConnection c state).closeChildren c).notify options now c
    else s.setConnection c state

/-! ### Services -/

def serviceSetup (options : Options) (endpoint : Endpoint) (service : ClusterService) : Service.Setup where
  options := ⟨endpoint.host, endpoint.port, endpoint.token, .number options.timeoutMs, .number 32⟩
  route := service.route
  handler := .function
  handleOptions := { service.options with onError := .function }

/-- The child that `client.handle` makes once its checks have passed. -/
def child (setup : Service.Setup) : Except Failure Service.State := do
  let _ ← Client.handle setup.route setup.handler setup.handleOptions
  let concurrency ← setup.concurrency
  let checked ← Client.settings { setup.options with maxPendingRequests := .number concurrency }
  return .new checked

def attach (options : Options) (now : ℚ) (n v : Nat) (s : State) : State :=
  match s.registrations[v]?, s.nodes[n]? with
  | some service, some node =>
    if service.stopped ∨ (service.handles.lookup n).isSome ∨ now < (service.retryAt.lookup n).getD 0 then s
    else if (service.attaching.lookup n).isSome then s
    else match node.client with
      | none => s
      | some c =>
        if s.isOpen c = false then s
        else
          let attaching (handle : Option Nat) (s : State) : State :=
            { s with epoch := s.epoch + 1 }.modifyService v fun service => { service with
              epochs := service.epochs.insert n s.epoch
              attaching := service.attaching.insert n ⟨c, s.epoch, handle, false⟩ }
          let setup := serviceSetup options node.endpoint service
          match child setup with
          | .error _ => attaching none s
          | .ok state => attaching (some s.handles.length)
            { s with handles := s.handles ++ [⟨v, n, c, s.epoch, setup, state⟩] }
  | _, _ => s

def attachAll (options : Options) (now : ℚ) (n : Nat) (s : State) : State :=
  s.services.foldl (fun s v => s.attach options now n v) s

/-- The `catch` of `attach`. -/
def attachFailed (options : Options) (now : ℚ) (n v : Nat) (a : Attaching) (s : State) : State :=
  s.modifyService v fun service => { service with
    retryAt := service.retryAt.insert n (now + options.healthIntervalMs)
    attaching := service.attaching.insert n { a with ended := true } }

/-- What `attach` does with the handle it got. -/
def adopt (n v : Nat) (a : Attaching) (h : Nat) (s : State) : State :=
  match s.registrations[v]?, s.nodes[n]? with
  | some service, some node =>
    let ended := service.attaching.insert n { a with ended := true }
    if service.stopped ∨ service.epochs.lookup n ≠ some a.epoch ∨ node.client ≠ some a.client ∨
        s.isOpen a.client = false then
      (s.modifyService v fun service => { service with attaching := ended }).closeHandle h
    else s.modifyService v fun service => { service with
      attaching := ended
      handles := service.handles.insert n h
      retryAt := service.retryAt.erase n }
  | _, _ => s

/-- The `onError` that `attach` gives to the handle. -/
def onError (options : Options) (now : ℚ) (handle : Handle) (s : State) : State :=
  match s.registrations[handle.service]? with
  | none => s
  | some service =>
    if service.epochs.lookup handle.node ≠ some handle.epoch ∨ service.stopped then s
    else (s.detach handle.node handle.service).modifyService handle.service fun service =>
      { service with retryAt := service.retryAt.insert handle.node (now + options.healthIntervalMs) }

/-- A handle has moved on; when it failed, it reports that. -/
def follow (options : Options) (now : ℚ) (h : Nat) (handle : Handle) (state : Service.State) (s : State) : State :=
  let s := { s with handles := s.handles.modify h fun handle => { handle with state := state } }
  if handle.state.stopped = false ∧ state.stopped ∧ state.cause ≠ some .closed then s.onError options now handle else s

def closeService (v : Nat) (s : State) : State :=
  match s.registrations[v]? with
  | none => s
  | some service =>
    if service.stopped then s
    else
      let s := { s with services := s.services.erase v }.modifyService v fun service => { service with stopped := true }
      service.handles.entries.foldl (fun s entry => s.closeHandle entry.2) s

/-- The nodes a service is registered on. -/
def nodesOf (s : State) (service : ClusterService) : List Nat := service.handles.keys.filter s.connected

def register (options : Options) (now : ℚ) (route handler : Value) (handleOptions : Client.HandleOptions) (s : State) :
    Except Rejection State := do
  if s.stopped then throw (.unavailable "Cluster client is closed")
  let lift {α : Type} (checked : Except Failure α) : Except Rejection α := checked.mapError .failure
  let _ ← lift (Client.topicBytes route false)
  if handler ≠ .function then throw (.failure (.typeError "handler must be a function"))
  if handleOptions.onError ≠ .undefined ∧ handleOptions.onError ≠ .function then
    throw (.failure (.typeError "onError must be a function"))
  if ∃ v ∈ s.services, (s.registrations[v]?).map ClusterService.route = some route then
    throw (.failure (.other "Route already registered on this cluster client"))
  if 32 ≤ s.services.length then
    throw (.failure (.rangeError "A cluster client supports at most 32 service registrations"))
  let concurrency ← lift (Client.integer (handleOptions.concurrency.orElse (.number 8)) 1 32 "concurrency")
  let queueLimit ← lift (Client.integer (handleOptions.queueLimit.orElse (.number 128)) 1 4096 "queueLimit")
  let v := s.registrations.length
  let service : ClusterService := ⟨route, { handleOptions with
    concurrency := .number concurrency
    queueLimit := .number queueLimit }, false, ∅, ∅, ∅, ∅⟩
  return (List.range s.nodes.length).foldl (fun s n => s.attach options now n v) { s with
    registrations := s.registrations ++ [service]
    services := s.services ++ [v]
    registering := s.registering ++ [v] }

/-! ### Nodes -/

def connectOptions (options : Options) (endpoint : Endpoint) : Client.ConnectOptions :=
  ⟨endpoint.host, endpoint.port, endpoint.token, .number options.timeoutMs, .number 32⟩

def connectNode (options : Options) (n : Nat) (s : State) : State :=
  match s.nodes[n]? with
  | none => s
  | some node =>
    if s.stopped ∨ s.connected n ∨ node.connecting.isSome then s
    else
      let dial (dial : Dial) (s : State) : State :=
        { s with attempts := s.attempts + 1 }.modifyNode n fun node =>
          { node with connecting := some ⟨s.attempts, dial⟩ }
      match Client.settings (connectOptions options node.endpoint) with
      | .error reason => dial (.invalid reason) s
      | .ok checked => dial (.dialling s.connections.length)
        { s with connections := s.connections ++ [⟨n, .new checked⟩] }

def ending (n : Nat) (s : State) : State :=
  s.modifyNode n fun node => { node with
    connecting := node.connecting.map fun connecting => { connecting with dial := .ending } }

/-- What `connectNode` does with the client it got. -/
def welcome (options : Options) (now : ℚ) (n c : Nat) (s : State) : State :=
  if s.stopped then (s.closeClient c).ending n
  else ((s.ending n).modifyNode n fun node => { node with
    client := some c
    failures := 0
    lastError := none
    unsubscribe := some c }).attachAll options now n

/-- The `catch` of `connectNode`. -/
def connectFailed (options : Options) (now random : ℚ) (n : Nat) (error : Failure) (s : State) : State :=
  (s.modifyNode n fun node =>
    let backoff : ℚ := min (options.reconnectMaxMs : ℚ) (options.reconnectMinMs * 2 ^ min node.failures 16)
    { node with
      failures := node.failures + 1
      lastError := some error
      retryAt := now + backoff * (8 / 10 + random * (2 / 10)) }).ending n

/-- A node gives back the place of an attempt. -/
def release (n : Nat) (s : State) : State := s.modifyNode n fun node => { node with pending := node.pending - 1 }

def occupy (n : Nat) (s : State) : State := s.modifyNode n fun node => { node with pending := node.pending + 1 }

/-- A method of the client of a node: what it throws, or the request it sends. -/
def call (options : Options) (now : ℚ) (c : Nat) (body : Except Failure Bytes) (opcode : Nat)
    (parse : Client.Parser Reply) (socket : Client.Socket) (s : State) : Option (Except Failure Nat × State) :=
  match s.connections[c]? with
  | none => none
  | some connection =>
    match connection.state.ensureCapacity, body with
    | .error reason, _ => some (.error reason, s)
    | .ok (), .error reason => some (.error reason, s)
    | .ok (), .ok body =>
      match connection.state.send socket opcode body parse with
      | none => none
      | some state => some (.ok connection.state.sent.length, s.update options now c state)

def ping (options : Options) (now : ℚ) (n c : Nat) (socket : Client.Socket) (s : State) : Option State :=
  match (s.occupy n).call options now c (.ok []) 5 pingParser socket with
  | none => none
  | some (promise, s) => some { s with pings := s.pings.insert n ⟨n, c, promise⟩ }

/-- The part of a tick that is about one node. -/
def tickNode (options : Options) (now : ℚ) (socket : Client.Socket) (n : Nat) (s : State) : Option State :=
  let reconnect (s : State) : State :=
    match s.nodes[n]? with
    | none => s
    | some node => if node.retryAt ≤ now then s.connectNode options n else s
  match s.nodes[n]? with
  | none => some s
  | some node =>
    match node.client with
    | none => some (reconnect s)
    | some c =>
      if s.isOpen c = false then some (reconnect (s.retire options now n c (.other "Connection closed")))
      else if node.pending = 0 then s.ping options now n c socket
      else some (s.attachAll options now n)

/-- The nodes of a tick from one on. -/
def tickNodes (options : Options) (now : ℚ) (sockets : Nat → Client.Socket) : List Nat → State → Option State
  | [], s => some s
  | n :: ns, s => (s.tickNode options now (sockets n) n).bind (tickNodes options now sockets ns)

def tick (options : Options) (now : ℚ) (sockets : Nat → Client.Socket) (s : State) : Option State :=
  let s := { s with ticking := true }
  if s.stopped then some s else tickNodes options now sockets (List.range s.nodes.length) s

/-- What a tick does with the settlement of its ping. -/
def pinged (options : Options) (now : ℚ) (n : Nat) (ping : Attempt) (outcome : Client.Settlement Reply) (s : State) :
    State :=
  let finish (s : State) : State := ({ s with pings := s.pings.erase n }.release n).attachAll options now n
  match outcome with
  | .resolved _ => finish s
  | .rejected reason => finish (s.retire options now n ping.client reason)

/-! ### Requests -/

def pendingOf (s : State) (n : Nat) : Int :=
  match s.nodes[n]? with
  | none => 0
  | some node => node.pending

/-- Whether `choose` prefers a node to the best one so far. -/
def Better (s : State) (tried : List Nat) (best : Option Nat) (n : Nat) : Prop :=
  n ∉ tried ∧ s.connected n = true ∧ s.pendingOf n < 32 ∧ ∀ m ∈ best, s.pendingOf n < s.pendingOf m

instance (s : State) (tried : List Nat) (best : Option Nat) (n : Nat) : Decidable (s.Better tried best n) :=
  inferInstanceAs (Decidable (_ ∧ _))

def choose (tried : List Nat) (s : State) : Option Nat :=
  (List.range s.nodes.length).foldl (fun best offset =>
    let n := (s.cursor + offset) % s.nodes.length
    if s.Better tried best n then some n else best) none

/-- The end of a request past admission. -/
def leave (id : Nat) (answer : Answer) (s : State) : State :=
  { s with
    pending := s.pending - 1
    requests := s.requests.erase id
    answers := s.answers ++ [(id, answer)] }

/-- What a request throws when no node is left. -/
def exhausted (request : Request) (s : State) : Rejection :=
  match request.lastError with
  | some error => .failure error
  | none =>
    if ∃ n ∈ List.range s.nodes.length, s.connected n = true then .failure .backpressure
    else .unavailable "No connected broker is available; request was not sent"

/-- A round of the loop in `request`, up to its await. -/
def proceed (options : Options) (now : ℚ) (id : Nat) (request : Request) (socket : Client.Socket) (s : State) :
    Option State :=
  match if request.tried.length < s.nodes.length then s.choose request.tried else none with
  | none => some (s.leave id (.rejected (s.exhausted request)))
  | some n =>
    let s := { s with cursor := (n + 1) % s.nodes.length }
    let remaining := ⌈request.deadline - now⌉
    if remaining < 1 then some (s.leave id (.rejected (.failure
      (.broker 10 "Cluster admission deadline exceeded; no further attempt was sent"))))
    else match (s.nodes[n]?).bind NodeState.client with
      | none => none
      | some c =>
        match (s.occupy n).call options now c (Client.request request.route request.snapshot ⟨.number remaining⟩) 7
            responseParser socket with
        | none => none
        | some (promise, s) => some { s with
            requests := s.requests.insert id ({ request with tried := n :: request.tried }, ⟨n, c, promise⟩) }

/-- The checks of `request`: the snapshot of the payload, and the timeout. -/
def admission (options : Options) (route payload : Value) (requestOptions : Client.RequestOptions) (s : State) :
    Except Rejection (Bytes × Nat) := do
  if s.stopped then throw (.unavailable "Cluster client is closed; request was not sent")
  let lift {α : Type} (checked : Except Failure α) : Except Rejection α := checked.mapError .failure
  let _ ← lift (Client.topicBytes route false)
  let bytes ← match payload with
    | .text payload => pure (Bytes.utf8 payload.toString)
    | .bytes payload => pure payload
    | _ => throw (.failure (.typeError "payload must be a string or Uint8Array"))
  if Client.maxPayload < bytes.length then throw (.failure (.rangeError "Payload exceeds 262144 bytes"))
  let timeoutMs ← lift (Client.integer (requestOptions.timeoutMs.orElse (.number 5000)) 1 30000 "timeoutMs")
  if options.maxPending ≤ s.pending then throw (.failure .backpressure)
  return (bytes, timeoutMs)

def request (options : Options) (now : ℚ) (route payload : Value) (requestOptions : Client.RequestOptions)
    (socket : Client.Socket) (s : State) : Option State :=
  match s.admission options route payload requestOptions with
  | .error reason => some { s with
      called := s.called + 1
      answers := s.answers ++ [(s.called, .rejected reason)] }
  | .ok (snapshot, timeoutMs) =>
    { s with called := s.called + 1, pending := s.pending + 1 }.proceed options now s.called
      ⟨route, .bytes snapshot, now + timeoutMs, [], none⟩ socket

/-- What a request does with the settlement of its attempt. -/
def resume (options : Options) (now : ℚ) (id : Nat) (request : Request) (attempt : Attempt)
    (outcome : Client.Settlement Reply) (socket : Client.Socket) (s : State) : Option State :=
  let again (error : Failure) : Option State :=
    (s.release attempt.node).proceed options now id { request with lastError := some error } socket
  let ends (answer : Answer) (s : State) : Option State := some ((s.release attempt.node).leave id answer)
  match outcome with
  | .resolved value => ends (.response value) s
  | .rejected (.broker code message) =>
    if code ≠ 8 ∧ code ≠ 9 then ends (.rejected (.failure (.broker code message))) s else again (.broker code message)
  | .rejected .backpressure => again .backpressure
  | .rejected error =>
    let brokerId := ((s.nodes[attempt.node]?).map fun node => node.endpoint.id).getD []
    ends (.rejected (.ambiguous brokerId error)) (s.retire options now attempt.node attempt.client error)

/-- What an attempt was settled with. -/
def Settled (s : State) (attempt : Attempt) (outcome : Client.Settlement Reply) : Prop :=
  match attempt.promise with
  | .error reason => outcome = .rejected reason
  | .ok promise => ∃ connection, s.connections[attempt.client]? = some connection ∧
    (promise, outcome) ∈ connection.state.settled

/-! ### Close -/

/-- What `close` does before its first await. -/
def shutdown (s : State) : State :=
  if s.closing.isSome then s
  else
    let s := { s with
      stopped := true
      timer := false
      closing := some (.clients s.services)
      nodes := s.nodes.map fun node : NodeState => { node with unsubscribe := none } }
    let s := s.services.foldl (fun s v => s.closeService v) s
    (s.nodes.filterMap NodeState.client).foldl (fun s c => s.closeClient c) s

/-- `close` of a service is through: its handles are let go and its attaches have ended. -/
def Ended (s : State) (v : Nat) : Prop :=
  ∃ service, s.registrations[v]? = some service ∧ service.stopped = true ∧ service.handles = ∅ ∧ service.attaching = ∅

/-- The attempts of `connectNode` that are under way. -/
def underWay (s : State) : List Nat := s.nodes.filterMap fun node => node.connecting.map Connecting.attempt

end State

/-- The steps that `open`, the socket and its peer take. -/
def Ambient : Client.Op Reply → Prop
  | .send _ _ _ _ => False
  | .close => False
  | _ => True

inductive Op where
  /-- A step of a client or of a service on one. -/
  | client (c : Nat) (op : Client.Op Reply)
  | service (h : Nat) (op : Service.Op)
  /-- `ClusterClient.connect` goes on. -/
  | opened
  /-- `connectNode` goes on with what `Client.connect` was settled with, and ends. -/
  | connected (n : Nat) (random : ℚ)
  | connectEnd (n : Nat)
  /-- The observer of a client that had failed before it was added. -/
  | notify (n : Nat)
  | tick (sockets : Nat → Client.Socket)
  | pinged (n : Nat)
  | ticked
  | request (route payload : Value) (options : Client.RequestOptions) (socket : Client.Socket)
  | answered (id : Nat) (socket : Client.Socket)
  | handle (route handler : Value) (options : Client.HandleOptions)
  | handled (v : Nat)
  /-- `attach` goes on with what `client.handle` was settled with, and ends. -/
  | attached (n v : Nat)
  | attachEnd (n v : Nat)
  /-- `close` of a service, and its end. -/
  | closeService (v : Nat)
  | serviceClosed (v : Nat)
  /-- `close`, and what follows its three awaits. -/
  | close
  | clientsClosed
  | connectingEnded
  | tickingEnded

namespace State

def Step (options : Options) (s : State) (now : ℚ) (op : Op) (t : State) : Prop :=
  match op with
  | .client c op => ∃ connection state, s.connections[c]? = some connection ∧ Ambient op ∧
    connection.state.Enabled op ∧ connection.state.next none op = some state ∧ t = s.update options now c state
  | .service h op => ∃ handle state, s.handles[h]? = some handle ∧ handle.state.Step handle.setup op state ∧
    match op with
    | .close => False
    -- The client looks whether it is open after each await of `handle`.
    | .announce _ => s.isOpen handle.parent = true ∧ t = s.follow options now h handle state
    | .serve => s.isOpen handle.parent = true ∧ t = s.follow options now h handle state
    | _ => t = s.follow options now h handle state
  | .opened => s.phase = .connecting ∧ s.underWay = [] ∧
    t = if ∃ n ∈ List.range s.nodes.length, s.connected n = true then { s with phase := .ready, timer := true }
      else { s with phase := .refused }.shutdown
  | .connected n random => 0 ≤ random ∧ random < 1 ∧ ∃ node attempt dial, s.nodes[n]? = some node ∧
    node.connecting = some ⟨attempt, dial⟩ ∧
    match dial with
    | .invalid reason => t = s.connectFailed options now random n reason
    | .dialling c => ∃ connection, s.connections[c]? = some connection ∧
      ((connection.state.stage = .opened ∧ t = s.welcome options now n c) ∨
        (connection.state.closed = true ∧ (connection.state.stage = .refused ∨ connection.state.stage = .connecting) ∧
          t = s.connectFailed options now random n connection.state.closeReason))
    | .ending => False
  | .connectEnd n => ∃ node attempt, s.nodes[n]? = some node ∧ node.connecting = some ⟨attempt, .ending⟩ ∧
    t = s.modifyNode n fun node => { node with connecting := none }
  | .notify n => ∃ node c, s.nodes[n]? = some node ∧ node.unsubscribe = some c ∧ s.isOpen c = false ∧
    t = s.notify options now c
  | .tick sockets => s.timer = true ∧ s.ticking = false ∧ s.tick options now sockets = some t
  | .pinged n => ∃ ping outcome, s.pings.lookup n = some ping ∧ s.Settled ping outcome ∧
    t = s.pinged options now n ping outcome
  | .ticked => s.ticking = true ∧ s.pings = ∅ ∧ t = { s with ticking := false }
  | .request route payload requestOptions socket => s.phase = .ready ∧
    s.request options now route payload requestOptions socket = some t
  | .answered id socket => ∃ request attempt outcome, s.requests.lookup id = some (request, attempt) ∧
    s.Settled attempt outcome ∧ s.resume options now id request attempt outcome socket = some t
  | .handle route handler handleOptions => s.phase = .ready ∧
    match s.register options now route handler handleOptions with
    | .error _ => t = s
    | .ok next => t = next
  | .handled v => v ∈ s.registering ∧ ∃ service, s.registrations[v]? = some service ∧
    let s := { s with registering := s.registering.erase v }
    t = if s.nodesOf service = [] then s.closeService v else s
  | .attached n v => ∃ service a, s.registrations[v]? = some service ∧ service.attaching.lookup n = some a ∧
    a.ended = false ∧
    match a.handle with
    | none => t = s.attachFailed options now n v a
    | some h => ∃ handle, s.handles[h]? = some handle ∧
      ((handle.state.phase = .serving ∧ t = s.adopt n v a h) ∨
        (handle.state.phase = .failed ∧ t = s.attachFailed options now n v a))
  | .attachEnd n v => ∃ service a, s.registrations[v]? = some service ∧ service.attaching.lookup n = some a ∧
    a.ended = true ∧ t = s.modifyService v fun service => { service with attaching := service.attaching.erase n }
  | .closeService v => t = s.closeService v
  | .serviceClosed v => ∃ service, s.registrations[v]? = some service ∧ service.stopped = true ∧
    t = s.modifyService v fun service => { service with handles := ∅ }
  | .close => s.phase = .ready ∧ t = s.shutdown
  | .clientsClosed => ∃ services, s.closing = some (.clients services) ∧ (∀ v ∈ services, s.Ended v) ∧
    t = { s with closing := some (.connecting s.underWay) }
  | .connectingEnded => ∃ attempts, s.closing = some (.connecting attempts) ∧ (∀ a ∈ s.underWay, a ∉ attempts) ∧
    t = { s with closing := some .ticking }
  | .tickingEnded => s.closing = some .ticking ∧ s.ticking = false ∧
    t = { s with closing := some .closed, nodes := s.nodes.map fun node : NodeState => { node with client := none } }

end State

/-- A cluster client from the call of `connect` on. -/
def machine (options : Options) : Transition State (ℚ × Op) where
  start s := s = (List.range options.brokers.length).foldl (fun s n => s.connectNode options n) (.new options)
  step s event t := s.Step options event.1 event.2 t

end VeloBus.Cluster
