import NetworkLayer.AddressUse
import NetworkLayer.BindRequests
import NetworkLayer.FifoNames

/-!
# Programs that bind at one manager

Any number of programs call `SocketBind` at a manager. Each writes its request
to the one bind fifo, makes a fifo of its own and waits there for the answer;
the manager takes one request a round. The manager may do anything else between
its rounds, a program may fail at any of its calls, and it may leave its call
before the answer is there.
-/

namespace NetworkLayer.BindCalls

open ByteStrings CellBlocks FormattedText UtilTypes Hashmap SlotTables FifoUtils FifoNames
open PacketHandlers PacketDispatch SocketRequests TableMoves BindRequests PortExclusivity
open AddressUse UniqueKeys StepRuns

/-- `REQUEST_GRANTED_FIFO`. -/
def requestGrantedFifo : Byte := 75

/-- `REQUEST_DENIED_FIFO`. -/
def requestDeniedFifo : Byte := 78

/-- `Status`. -/
inductive Status
  | success | invalidArgument | memoryError | requestDenied | timedOut
  deriving DecidableEq,Repr

/-- What a call of `SocketBind` returns. -/
structure BindResult where
  /-- The number of the call, 0 where it did not get one. -/
  socketCounter : ℤ
  /-- The status, or none for -1. -/
  status : Option Status
  /-- The caller's identity afterwards. -/
  sockid : SocketID

/-- A call that waits for its answer. -/
structure Waiting where
  /-- The caller's identity. -/
  sockid : SocketID
  /-- The address to bind to. -/
  addrport : Address
  /-- What is in the program's own fifo. -/
  myFifo : List Byte

/-- A program. -/
structure Client where
  /-- Its process id. -/
  pid : ℤ
  /-- `socket_count`. -/
  socketCount : ℤ
  /-- Its call, while it waits. -/
  call : Option Waiting
  /-- What its calls have returned, in order. -/
  results : List BindResult

/-- Which of the calls at the start of `SocketBind` work. -/
structure Opening where
  /-- The manager's bind fifo can be opened. -/
  opensRequests : Bool
  /-- The own fifo can be made. -/
  makesOwn : Bool
  /-- And opened. -/
  opensOwn : Bool
  /-- The request can be written. -/
  writes : Bool

/-- A call returns. -/
def Client.returns (client : Client) (socketCounter : ℤ) (status : Option Status)
    (sockid : SocketID) : Client :=
  {client with call := none,results := client.results++[⟨socketCounter,status,sockid⟩]}

/-- `SocketBind` up to its wait for the answer, with the bytes that it writes
to the bind fifo. -/
def Client.socketBind (client : Client) (sockid : SocketID) (addrport : Address)
    (opening : Opening) : Client × List Byte :=
  if getSocketState sockid≠.empty then (client.returns 0 (some .invalidArgument) sockid,[])
  else
    let socketCount := client.socketCount+1
    let counted := {client with socketCount := socketCount}
    if opening.opensRequests=false then
      (counted.returns socketCount (some .memoryError) sockid,[])
    else if opening.makesOwn=false then (counted.returns socketCount none sockid,[])
    else if opening.opensOwn=false then
      (counted.returns socketCount (some .memoryError) sockid,[])
    else if opening.writes=false then
      (counted.returns socketCount (some .memoryError) sockid,[])
    else ({counted with call := some ⟨sockid,addrport,[]⟩},
      (bindMessage addrport client.pid socketCount).chars++[0])

/-- One round of the wait: a read from the own fifo. -/
def Client.awaitAnswer (client : Client) (failed : Bool) : Client :=
  match client.call with
  | none => client
  | some call =>
    if failed=true then client.returns client.socketCount (some .memoryError) call.sockid
    else match call.myFifo with
      | [] => client
      | answer::_ =>
        if answer=requestGrantedFifo then
          client.returns client.socketCount (some .success)
            {call.sockid with srcIp := call.addrport.addr,srcPort := call.addrport.port}
        else client.returns client.socketCount (some .requestDenied) call.sockid

/-- The name of the fifo in which a program waits. -/
def Client.fifoName (client : Client) : FifoName :=
  getClientFifoName client.pid client.socketCount

/-- A char is written to a fifo, which may be the program's own. -/
def Client.deliver (reply : FifoName × Byte) (client : Client) : Client :=
  {client with call := client.call.map fun call =>
    if client.fifoName=reply.1 then {call with myFifo := call.myFifo++[reply.2]} else call}

/-- The reply of `handle_bind_request`, with the name of the fifo it is written
to. -/
def bindReply (libc : Libc) (env : Env) (manager : NetworkManager) (request : CString) :
    Option (FifoName × Byte) :=
  match scanBindRequest libc request with
  | none => none
  | some (port,pid,socketCounter) =>
    let sockId := boundId manager port
    let clientFifoName := getClientFifoName pid socketCounter
    let reply := if canBindNewSocket manager sockId=true ∧ (bindNewSocket env manager sockId).1=0
      then requestGrantedFifo else requestDeniedFifo
    if env.writeWorks clientFifoName=true then some (clientFifoName,reply) else none

/-- The reply of `handle_bind_fifo`. -/
def bindFifoReply (libc : Libc) (env : Env) (manager : NetworkManager) (fifo : FifoContent)
    (bindRequest : ℕ → Byte) : Option (FifoName × Byte) :=
  let read := readMessageUntilChar fifo bindRequest 0
  if read.result ≤ 0 then none
  else bindReply libc env manager (CString.ofCells (loadBlock read.buf 0 read.stored))

/-- A request, as it was called for. -/
structure Ticket (n : ℕ) where
  /-- The program. -/
  client : Fin n
  /-- Its process id. -/
  pid : ℤ
  /-- The number of the call. -/
  socketCounter : ℤ
  /-- The address. -/
  addrport : Address

/-- What is written for it. -/
def Ticket.text {n : ℕ} (ticket : Ticket n) : List Byte :=
  (bindMessage ticket.addrport ticket.pid ticket.socketCounter).chars++[0]

/-- A manager and so many programs, with the history of their calls. -/
structure World (n : ℕ) where
  /-- The manager. -/
  manager : NetworkManager
  /-- Whether its loop goes on. -/
  running : Bool
  /-- What is in its bind fifo. -/
  requests : List Byte
  /-- The programs. -/
  clients : Fin n → Client
  /-- All calls that have written a request, in order. -/
  calls : List (Ticket n)
  /-- Those that the manager has handled, in order, each with whether it added
  a socket for it. -/
  handled : List (Ticket n × Bool)

/-- What can happen. -/
inductive Event (n : ℕ)
  /-- A program calls `SocketBind`, unless it waits. -/
  | socketBind (client : Fin n) (sockid : SocketID) (addrport : Address) (opening : Opening)
  /-- A program that waits reads from its fifo. -/
  | awaitAnswer (client : Fin n) (failed : Bool)
  /-- The manager comes to its bind fifo. -/
  | bindFifo (env : Env) (ending : ReadEnd) (bindRequest : ℕ → Byte)
  /-- The manager serves something else. -/
  | serve (request : Request)

/-- A socket with a key was put into a slot that was free. -/
def added (key : SocketID) (before after : NetworkManager) : Bool :=
  (List.finRange hashMapDefaultSize).any fun j => (before.sockets.table j).isNone &&
    (after.sockets.table j).any fun s => compareKeys s.id key

namespace World

variable {n : ℕ}

/-- A fifo can be written to only if it is there: some program waits in it. -/
def meets (world : World n) (env : Env) : Env :=
  {env with writeWorks := fun name => env.writeWorks name &&
    (List.finRange n).any fun c =>
      (world.clients c).call.isSome && decide ((world.clients c).fifoName=name)}

/-- The calls whose requests the manager has not handled. -/
def pending (world : World n) : List (Ticket n) := world.calls.drop world.handled.length

/-- The manager comes to its bind fifo. -/
def handleBindFifo (libc : Libc) (world : World n) (env : Env) (ending : ReadEnd)
    (bindRequest : ℕ → Byte) : World n :=
  let env := world.meets env
  let fifo : FifoContent := ⟨world.requests,ending⟩
  let served := BindRequests.handleBindFifo libc env world.manager fifo bindRequest
  let reply := bindFifoReply libc env world.manager fifo bindRequest
  {world with
    manager := served.1.manager
    running := served.1.result=0
    requests := world.requests.drop served.2
    clients := fun c => reply.elim (world.clients c) fun reply => (world.clients c).deliver reply
    handled := world.handled++if served.2=0 then [] else (world.pending.take 1).map fun ticket =>
      (ticket,added (boundId world.manager ticket.addrport.port) world.manager served.1.manager)}

/-- One event. -/
def step (libc : Libc) (world : World n) : Event n → World n
  | .socketBind c sockid addrport opening =>
    if (world.clients c).call.isSome=true then world
    else
      let called := (world.clients c).socketBind sockid addrport opening
      {world with
        requests := world.requests++called.2
        clients := Function.update world.clients c called.1
        calls := world.calls++if called.1.call.isSome=true then
          [⟨c,called.1.pid,called.1.socketCount,addrport⟩] else []}
  | .awaitAnswer c failed =>
    {world with clients := Function.update world.clients c ((world.clients c).awaitAnswer failed)}
  | .bindFifo env ending bindRequest =>
    if world.running=true then world.handleBindFifo libc env ending bindRequest else world
  | .serve request =>
    if world.running=true then {world with manager := managerStep libc world.manager request}
    else world

end World

/-- The char that answers a call. -/
def answerTo (granted : Bool) : Byte :=
  if granted=true then requestGrantedFifo else requestDeniedFifo

/-- A socket that a request adds has the key of its port. -/
theorem id_of_bound {libc : Libc} {env : Env} {manager : NetworkManager} {request : CString}
    {port : ℤ} (hscan : (scanBindRequest libc request).map Prod.fst=some port)
    {j : Fin hashMapDefaultSize} {s : Socket} (hj : manager.sockets.table j=none)
    (hs : (handleBindRequest libc env manager request).manager.sockets.table j=some s) :
    s.id=boundId manager port := by
  have hmove := handleBindRequest_move libc env manager request
  generalize (handleBindRequest libc env manager request).manager.sockets.table=slots
    at hmove hs
  cases hmove with
  | same =>
    rw [hj] at hs
    cases hs
  | written _ _ _ i old new hold =>
    have hji : j≠i := by
      rintro rfl
      rw [hj] at hold
      cases hold
    rw [Function.update_of_ne hji,hj] at hs
    cases hs
  | bound _ _ port' k new hgrants _ hid =>
    obtain ⟨pid,socketCounter,hnumbers,_⟩ := hgrants
    rw [hnumbers,Option.map_some,Option.some.injEq] at hscan
    rcases update_some_cases hs with ⟨rfl,rfl⟩|⟨_,hrest⟩
    · rw [hid,←hscan]
    · rw [hj] at hrest
      cases hrest
  | removed _ i old hremoved => cases hremoved

/-- A request adds a socket exactly if it can be granted. -/
theorem added_iff (libc : Libc) (env : Env) (manager : NetworkManager) (request : CString)
    (port : ℤ) (hscan : (scanBindRequest libc request).map Prod.fst=some port) :
    added (boundId manager port) manager (handleBindRequest libc env manager request).manager=true ↔
      Grants libc env manager request port := by
  simp only [added,List.any_eq_true,List.mem_finRange,true_and,Bool.and_eq_true,
    Option.isNone_iff_eq_none,Option.any_eq_true]
  constructor
  · rintro ⟨j,hj,s,hs,_⟩
    exact (granted_iff ..).mp ⟨hscan,j,hj,by rw [hs]; simp⟩
  · intro hgrants
    obtain ⟨_,j,hj,hafter⟩ := (granted_iff ..).mpr hgrants
    obtain ⟨s,hs⟩ := Option.ne_none_iff_exists'.mp hafter
    exact ⟨j,hj,s,hs,(compareKeys_iff _ _).mpr (id_of_bound hscan hj hs)⟩

/-- The answer to a request that can be read: it tells whether a socket is
added for it. Only where nothing is added none may get to the program, and then
the manager stops. -/
theorem bindReply_spec (libc : Libc) (env : Env) (manager : NetworkManager) {request : CString}
    {port pid socketCounter : ℤ}
    (hscan : scanBindRequest libc request=some (port,pid,socketCounter)) :
    let served := handleBindRequest libc env manager request
    let granted := added (boundId manager port) manager served.manager
    bindReply libc env manager request=
        some (getClientFifoName pid socketCounter,answerTo granted) ∨
      bindReply libc env manager request=none ∧ granted=false ∧ served.result≠0 := by
  intro served granted
  have hgranted := added_iff libc env manager request port (by rw [hscan]; rfl)
  have hgrants : Grants libc env manager request port ↔
      (canBindNewSocket manager (boundId manager port)=true ∧
        (bindNewSocket env manager (boundId manager port)).1=0) ∧
      env.writeWorks (getClientFifoName pid socketCounter)=true := by
    constructor
    · rintro ⟨pid',socketCounter',hsome,hcan,hfree,hroom,hwrites⟩
      rw [hscan,Option.some.injEq,Prod.mk.injEq,Prod.mk.injEq] at hsome
      obtain ⟨_,rfl,rfl⟩ := hsome
      exact ⟨⟨hcan,(bindNewSocket_iff_of_canBind env hcan).mpr ⟨hfree,hroom⟩⟩,hwrites⟩
    · rintro ⟨⟨hcan,hbound⟩,hwrites⟩
      obtain ⟨hfree,hroom⟩ := (bindNewSocket_iff_of_canBind env hcan).mp hbound
      exact ⟨pid,socketCounter,hscan,hcan,hfree,hroom,hwrites⟩
  simp only [bindReply,hscan]
  by_cases hwrites : env.writeWorks (getClientFifoName pid socketCounter)=true
  · left
    rw [if_pos hwrites,answerTo]
    congr 2
    exact if_congr ((hgranted.trans hgrants).trans (and_iff_left hwrites)).symm rfl rfl
  · right
    rw [if_neg hwrites]
    refine ⟨rfl,?_,?_⟩
    · rw [←Bool.not_eq_true]
      exact fun hadded => hwrites (hgrants.mp (hgranted.mp hadded)).2
    · intro hzero
      obtain ⟨_,_,_,hsome,hworks,_⟩ := (handleBindRequest_result_iff ..).mp hzero
      rw [hscan,Option.some.injEq,Prod.mk.injEq,Prod.mk.injEq] at hsome
      obtain ⟨_,rfl,rfl⟩ := hsome
      exact hwrites hworks

/-- A message at the start of a fifo is read as a whole. -/
theorem readMessageUntilChar_message {message : List Byte} (h : 0∉message) (rest : List Byte)
    (ending : ReadEnd) (buf : ℕ → Byte) :
    readMessageUntilChar ⟨message++0::rest,ending⟩ buf 0=
      ⟨message.length+1,storeBlock buf 0 (message++[0]),message.length+1⟩ := by
  simp only [readMessageUntilChar,readLoop_of_stop h,Nat.zero_add,Bool.true_eq_false,false_and,
    if_false,Nat.succ_ne_zero,Nat.cast_add,Nat.cast_one]

/-- And it is the string that is handed on. -/
theorem loadBlock_message (message : CString) (buf : ℕ → Byte) :
    CString.ofCells (loadBlock (storeBlock buf 0 (message.chars++[0])) 0 (message.strlen+1))=
      message := by
  have hlen : message.strlen+1=(message.chars++[0]).length := by simp [CString.strlen]
  rw [hlen,loadBlock_storeBlock]
  exact CString.ext (takeWhile_message message.nulFree [])

namespace World

variable {n : ℕ}

/-- What is known of one program. -/
structure ClientSound (world : World n) (c : Fin n) : Prop where
  /-- A call that waits is still to be handled, or its answer is there, unless
  the manager stopped at it. -/
  waits : ∀ call,(world.clients c).call=some call →
    let ticket : Ticket n := ⟨c,(world.clients c).pid,(world.clients c).socketCount,call.addrport⟩
    ticket∈world.pending ∧ call.myFifo=[] ∨ ∃ granted,(ticket,granted)∈world.handled ∧
      (call.myFifo=[answerTo granted] ∨ world.running=false ∧ call.myFifo=[])
  /-- A call that returned success had a socket added for it, under the address
  that the caller now has. -/
  granted : ∀ result∈(world.clients c).results,result.status=some .success →
    ∃ addrport,(⟨c,(world.clients c).pid,result.socketCounter,addrport⟩,true)∈world.handled ∧
      result.sockid.srcIp=addrport.addr ∧ result.sockid.srcPort=addrport.port
  /-- For a call that was denied none was added. -/
  denied : ∀ result∈(world.clients c).results,result.status=some .requestDenied →
    ∃ addrport,(⟨c,(world.clients c).pid,result.socketCounter,addrport⟩,false)∈world.handled

/-- The manager handles the calls in the order in which they were made, each
once, and every program learns what was done for its own. -/
structure InOrder (world : World n) : Prop where
  /-- The calls that were handled are the first ones. -/
  handled : world.handled.map Prod.fst<+:world.calls
  /-- The bind fifo holds the requests of the others. -/
  requests : world.requests=world.pending.flatMap Ticket.text
  /-- No two calls are the same. -/
  apart : world.calls.Pairwise fun first second =>
    first.client=second.client → first.socketCounter≠second.socketCounter
  /-- The programs. -/
  clients : ∀ c,world.ClientSound c

/-- The numbers in the requests. -/
structure Numbered (world : World n) : Prop where
  /-- Process ids are different. -/
  pids : Function.Injective fun c => (world.clients c).pid
  /-- They are of type `int`. -/
  pid_int : ∀ c,IsInt (world.clients c).pid
  /-- The counters count from 0 on, and fit. -/
  counts : ∀ c,0 ≤ (world.clients c).socketCount ∧ (world.clients c).socketCount ≤ intMax
  /-- The calls have these numbers. -/
  calls : ∀ ticket∈world.calls,ticket.pid=(world.clients ticket.client).pid ∧
    0 ≤ ticket.socketCounter ∧ ticket.socketCounter ≤ (world.clients ticket.client).socketCount

/-- A program calls no other manager and not so often that its counter
overflows; requests in the bind fifo come from these programs only. -/
def Proper (world : World n) : Event n → Prop
  | .socketBind c _ addrport _ => addrport.addr=world.manager.ip ∧
    (world.clients c).socketCount < intMax
  | .serve (.bind _ _) => False
  | _ => True

variable {world : World n}

/-- The calls are those that were handled and those that are not yet. -/
theorem InOrder.calls_eq (h : world.InOrder) :
    world.calls=world.handled.map Prod.fst++world.pending := by
  obtain ⟨rest,hrest⟩ := h.handled
  have hlen : (world.handled.map Prod.fst).length=world.handled.length := List.length_map _
  rw [pending,←hrest,List.drop_append,hlen,Nat.sub_self,List.drop_zero,
    List.drop_eq_nil_of_le (le_of_eq hlen),List.nil_append]

/-- The fifo of a program that waits has the name of one call. -/
theorem getClientFifoName_injective {pid pid' socketCounter socketCounter' : ℤ}
    (h : getClientFifoName pid socketCounter=getClientFifoName pid' socketCounter') :
    pid=pid' ∧ socketCounter=socketCounter' := by
  have hbehind := List.append_cancel_left h
  exact clientRepr_injective (List.append_cancel_left hbehind)

/-- A call that waits in the fifo of another one is this one. -/
theorem Numbered.same_call (h : world.Numbered) {c : Fin n} {ticket : Ticket n}
    (hticket : ticket∈world.calls)
    (hname : (world.clients c).fifoName=getClientFifoName ticket.pid ticket.socketCounter) :
    ticket.client=c ∧ ticket.socketCounter=(world.clients c).socketCount := by
  obtain ⟨hpid,hcounter⟩ := getClientFifoName_injective hname
  refine ⟨h.pids ?_,hcounter.symm⟩
  dsimp only
  rw [←(h.calls ticket hticket).1,hpid]

/-- The numbers of a call are of type `int`. -/
theorem Numbered.ticket_int (h : world.Numbered) {ticket : Ticket n}
    (hticket : ticket∈world.calls) : IsInt ticket.pid ∧ IsInt ticket.socketCounter := by
  obtain ⟨hpid,hnonneg,hle⟩ := h.calls ticket hticket
  refine ⟨hpid ▸ h.pid_int ticket.client,?_,?_⟩
  · exact le_trans (by decide) hnonneg
  · exact hle.trans (h.counts ticket.client).2

/-- What handling the next call leaves of the world. -/
def afterNext (libc : Libc) (world : World n) (env : Env) (ticket : Ticket n)
    (rest : List (Ticket n)) : World n :=
  let env := world.meets env
  let request := bindMessage ticket.addrport ticket.pid ticket.socketCounter
  let served := handleBindRequest libc env world.manager request
  {world with
    manager := served.manager
    running := served.result=0
    requests := rest.flatMap Ticket.text
    clients := fun c => (bindReply libc env world.manager request).elim (world.clients c)
      fun reply => (world.clients c).deliver reply
    handled := world.handled++
      [(ticket,added (boundId world.manager ticket.addrport.port) world.manager served.manager)]}

/-- Where calls are still to be handled, the manager handles the first. -/
theorem InOrder.handleBindFifo_next (h : world.InOrder) {ticket : Ticket n}
    {rest : List (Ticket n)} (hpending : world.pending=ticket::rest) (libc : Libc) (env : Env)
    (ending : ReadEnd) (bindRequest : ℕ → Byte) :
    world.handleBindFifo libc env ending bindRequest=world.afterNext libc env ticket rest := by
  generalize hmessage : bindMessage ticket.addrport ticket.pid ticket.socketCounter=message
  have hrequests : world.requests=message.chars++0::rest.flatMap Ticket.text := by
    rw [h.requests,hpending,List.flatMap_cons,Ticket.text,hmessage,List.append_assoc]
    rfl
  have hread := readMessageUntilChar_message message.nulFree (rest.flatMap Ticket.text) ending
    bindRequest
  rw [←hrequests] at hread
  have hblock := loadBlock_message message bindRequest
  have hpositive : ¬(message.chars.length : ℤ)+1 < 0 := by omega
  have hnonzero : ¬(message.chars.length : ℤ)+1=0 := by omega
  have hsome : ¬(message.chars.length : ℤ)+1 ≤ 0 := by omega
  have hserved : BindRequests.handleBindFifo libc (world.meets env) world.manager
      ⟨world.requests,ending⟩ bindRequest=
        (handleBindRequest libc (world.meets env) world.manager message,
          message.chars.length+1) := by
    simp only [BindRequests.handleBindFifo,hread,if_neg hpositive,if_neg hnonzero]
    exact congrArg (fun m => (handleBindRequest libc (world.meets env) world.manager m,_)) hblock
  have hreply : bindFifoReply libc (world.meets env) world.manager ⟨world.requests,ending⟩
      bindRequest=bindReply libc (world.meets env) world.manager message := by
    simp only [bindFifoReply,hread,if_neg hsome]
    exact congrArg (bindReply libc (world.meets env) world.manager) hblock
  have hrest : world.requests.drop (message.chars.length+1)=rest.flatMap Ticket.text := by
    rw [hrequests,List.drop_append,List.drop_eq_nil_of_le (Nat.le_succ _),Nat.add_sub_cancel_left]
    rfl
  unfold handleBindFifo afterNext
  simp only [hserved,hreply,hrest,hpending,hmessage]
  rfl

/-- Where none is, it reads nothing. -/
theorem InOrder.handleBindFifo_idle (h : world.InOrder) (hpending : world.pending=[])
    (libc : Libc) (env : Env) (ending : ReadEnd) (bindRequest : ℕ → Byte) :
    ∃ running,world.handleBindFifo libc env ending bindRequest={world with running := running} := by
  have hrequests : world.requests=[] := by rw [h.requests,hpending]; rfl
  have hread : (readMessageUntilChar ⟨world.requests,ending⟩ bindRequest 0).result ≤ 0 ∧
      (readMessageUntilChar ⟨world.requests,ending⟩ bindRequest 0).stored=0 := by
    rw [hrequests]
    by_cases hfailed : ending=.failed <;> simp [readMessageUntilChar,readLoop,hfailed]
  have hserved : ∃ result,BindRequests.handleBindFifo libc (world.meets env) world.manager
      ⟨world.requests,ending⟩ bindRequest=(returned result world.manager,0) := by
    simp only [BindRequests.handleBindFifo,hread.2]
    split
    · exact ⟨-1,rfl⟩
    · exact ⟨0,by rw [if_pos (by omega)]⟩
  obtain ⟨result,hserved⟩ := hserved
  have hreply : bindFifoReply libc (world.meets env) world.manager ⟨world.requests,ending⟩
      bindRequest=none := by
    simp only [bindFifoReply,if_pos hread.1]
  refine ⟨(returned result world.manager).result=0,?_⟩
  unfold handleBindFifo
  simp only [hserved,hreply,if_true,List.append_nil,List.drop_zero]
  rfl

/-- A program that nothing happens to keeps what is known of it, while its own
call is not handled. -/
theorem ClientSound.mono {after : World n} {c : Fin n} (h : world.ClientSound c)
    (hclient : after.clients c=world.clients c)
    (hpending : ∀ ticket∈world.pending,ticket.client=c →
      ticket.socketCounter=(world.clients c).socketCount → ticket∈after.pending)
    (hhandled : world.handled ⊆ after.handled)
    (hrunning : world.running=false → after.running=false) : after.ClientSound c where
  waits := by
    intro call hcall
    rw [hclient] at hcall ⊢
    rcases h.waits call hcall with ⟨hwaits,hempty⟩|⟨granted,hmem,hanswer⟩
    · exact Or.inl ⟨hpending _ hwaits rfl rfl,hempty⟩
    · refine Or.inr ⟨granted,hhandled hmem,hanswer.imp_right fun hstopped => ?_⟩
      exact ⟨hrunning hstopped.1,hstopped.2⟩
  granted := by
    intro result hresult hstatus
    rw [hclient] at hresult ⊢
    obtain ⟨addrport,hmem,hid⟩ := h.granted result hresult hstatus
    exact ⟨addrport,hhandled hmem,hid⟩
  denied := by
    intro result hresult hstatus
    rw [hclient] at hresult ⊢
    obtain ⟨addrport,hmem⟩ := h.denied result hresult hstatus
    exact ⟨addrport,hhandled hmem⟩

/-- Nor does a call that returns take it away, if what it returns is right. -/
theorem ClientSound.returns {after : World n} {c : Fin n} (h : world.ClientSound c)
    {socketCount socketCounter : ℤ} {status : Option Status} {sockid : SocketID}
    (hclient : after.clients c={world.clients c with socketCount := socketCount}.returns
      socketCounter status sockid) (hhandled : world.handled ⊆ after.handled)
    (hgranted : status=some .success →
      ∃ addrport,(⟨c,(world.clients c).pid,socketCounter,addrport⟩,true)∈world.handled ∧
        sockid.srcIp=addrport.addr ∧ sockid.srcPort=addrport.port)
    (hdenied : status=some .requestDenied →
      ∃ addrport,(⟨c,(world.clients c).pid,socketCounter,addrport⟩,false)∈world.handled) :
    after.ClientSound c := by
  have hresults : ∀ result∈(after.clients c).results,result∈(world.clients c).results ∨
      result=⟨socketCounter,status,sockid⟩ := by
    intro result hresult
    rw [hclient] at hresult
    simpa [Client.returns] using hresult
  have hpid : (after.clients c).pid=(world.clients c).pid := by rw [hclient]; rfl
  constructor
  · intro call hcall
    rw [hclient] at hcall
    cases hcall
  · intro result hresult hstatus
    rw [hpid]
    rcases hresults result hresult with hold|rfl
    · obtain ⟨addrport,hmem,hid⟩ := h.granted result hold hstatus
      exact ⟨addrport,hhandled hmem,hid⟩
    · obtain ⟨addrport,hmem,hid⟩ := hgranted hstatus
      exact ⟨addrport,hhandled hmem,hid⟩
  · intro result hresult hstatus
    rw [hpid]
    rcases hresults result hresult with hold|rfl
    · obtain ⟨addrport,hmem⟩ := h.denied result hold hstatus
      exact ⟨addrport,hhandled hmem⟩
    · obtain ⟨addrport,hmem⟩ := hdenied hstatus
      exact ⟨addrport,hhandled hmem⟩

/-- A call fails at its start, or it writes its request and waits. -/
theorem socketBind_cases (client : Client) (sockid : SocketID) (addrport : Address)
    (opening : Opening) :
    (∃ socketCount socketCounter status,socketCount ≤ client.socketCount+1 ∧
      client.socketCount ≤ socketCount ∧ status≠some .success ∧ status≠some .requestDenied ∧
      client.socketBind sockid addrport opening=
        ({client with socketCount := socketCount}.returns socketCounter status sockid,[])) ∨
    client.socketBind sockid addrport opening=
      ({client with
        socketCount := client.socketCount+1
        call := some ⟨sockid,addrport,[]⟩},
        (bindMessage addrport client.pid (client.socketCount+1)).chars++[0]) := by
  have hle : client.socketCount ≤ client.socketCount+1 := by omega
  unfold Client.socketBind
  split
  · exact Or.inl ⟨client.socketCount,0,_,hle,le_rfl,by decide,by decide,rfl⟩
  · simp only
    split
    · exact Or.inl ⟨_,_,_,le_rfl,hle,by decide,by decide,rfl⟩
    split
    · exact Or.inl ⟨_,_,_,le_rfl,hle,by decide,by decide,rfl⟩
    split
    · exact Or.inl ⟨_,_,_,le_rfl,hle,by decide,by decide,rfl⟩
    split
    · exact Or.inl ⟨_,_,_,le_rfl,hle,by decide,by decide,rfl⟩
    · exact Or.inr rfl

/-- A round of the wait changes nothing, fails, or takes the answer. -/
theorem awaitAnswer_cases (client : Client) (failed : Bool) :
    client.awaitAnswer failed=client ∨ ∃ call,client.call=some call ∧
      (client.awaitAnswer failed=
          client.returns client.socketCount (some .memoryError) call.sockid ∨
        ∃ answer rest,call.myFifo=answer::rest ∧
          (answer=requestGrantedFifo ∧ client.awaitAnswer failed=
              client.returns client.socketCount (some .success)
                {call.sockid with srcIp := call.addrport.addr,srcPort := call.addrport.port} ∨
            answer≠requestGrantedFifo ∧ client.awaitAnswer failed=
              client.returns client.socketCount (some .requestDenied) call.sockid)) := by
  unfold Client.awaitAnswer
  cases hcall : client.call with
  | none => exact Or.inl rfl
  | some call =>
    simp only
    split
    · exact Or.inr ⟨call,rfl,Or.inl rfl⟩
    · cases hfifo : call.myFifo with
      | nil => exact Or.inl rfl
      | cons answer rest =>
        simp only
        split
        · next hanswer => exact Or.inr ⟨call,rfl,Or.inr ⟨answer,rest,hfifo,Or.inl ⟨hanswer,rfl⟩⟩⟩
        · next hanswer => exact Or.inr ⟨call,rfl,Or.inr ⟨answer,rest,hfifo,Or.inr ⟨hanswer,rfl⟩⟩⟩

/-- What a call that writes its request leaves of the world. -/
def afterCall (world : World n) (c : Fin n) (sockid : SocketID) (addrport : Address) : World n :=
  let client := world.clients c
  let ticket : Ticket n := ⟨c,client.pid,client.socketCount+1,addrport⟩
  {world with
    requests := world.requests++ticket.text
    clients := Function.update world.clients c {client with
      socketCount := client.socketCount+1
      call := some ⟨sockid,addrport,[]⟩}
    calls := world.calls++[ticket]}

/-- Its ticket is the last one. -/
theorem InOrder.pending_afterCall (h : world.InOrder) (c : Fin n) (sockid : SocketID)
    (addrport : Address) :
    (world.afterCall c sockid addrport).pending=world.pending++
      [⟨c,(world.clients c).pid,(world.clients c).socketCount+1,addrport⟩] := by
  have hhandled : world.handled.length ≤ world.calls.length := by
    rw [h.calls_eq,List.length_append,List.length_map]
    omega
  rw [pending,pending,←List.drop_append_of_le_length hhandled]
  rfl

/-- A call that writes its request keeps the order. -/
theorem InOrder.afterCall (h : world.InOrder) (hn : world.Numbered) (c : Fin n)
    (sockid : SocketID) (addrport : Address) : (world.afterCall c sockid addrport).InOrder where
  handled := h.handled.trans (List.prefix_append _ _)
  requests := by
    rw [h.pending_afterCall,List.flatMap_append,←h.requests,List.flatMap_singleton]
    rfl
  apart := by
    refine List.pairwise_append.mpr ⟨h.apart,List.pairwise_singleton _ _,?_⟩
    rintro old hold new hnew hclient
    obtain rfl := List.mem_singleton.mp hnew
    have hle := (hn.calls old hold).2.2
    rw [hclient] at hle
    dsimp only at hle ⊢
    omega
  clients := by
    intro d
    have hpending := h.pending_afterCall c sockid addrport
    by_cases hd : d=c
    · subst hd
      have hclient : (world.afterCall d sockid addrport).clients d={world.clients d with
          socketCount := (world.clients d).socketCount+1
          call := some ⟨sockid,addrport,[]⟩} := Function.update_self _ _ _
      constructor
      · intro call hcall
        rw [hclient] at hcall ⊢
        obtain rfl := Option.some.inj hcall
        rw [hpending]
        exact Or.inl ⟨List.mem_append_right _ List.mem_cons_self,rfl⟩
      · rw [hclient]
        exact (h.clients d).granted
      · rw [hclient]
        exact (h.clients d).denied
    · refine (h.clients d).mono (Function.update_of_ne hd _ _) (fun ticket hmem _ _ => ?_)
        (List.Subset.refl _) id
      rw [hpending]
      exact List.mem_append_left _ hmem

/-- A program starts a call. -/
theorem InOrder.socketBind (h : world.InOrder) (hn : world.Numbered) (libc : Libc) (c : Fin n)
    (sockid : SocketID) (addrport : Address) (opening : Opening) :
    (world.step libc (.socketBind c sockid addrport opening)).InOrder := by
  rw [step]
  split
  · exact h
  rcases socketBind_cases (world.clients c) sockid addrport opening with
    ⟨socketCount,socketCounter,status,_,_,hnot,hnot',hcalled⟩|hcalled
  · simp only [hcalled]
    refine ⟨?_,?_,?_,fun d => ?_⟩
    · simpa [Client.returns] using h.handled
    · simpa [Client.returns,pending] using h.requests
    · simpa [Client.returns] using h.apart
    · by_cases hd : d=c
      · subst hd
        exact (h.clients d).returns (Function.update_self _ _ _) (List.Subset.refl _)
          (fun hstatus => absurd hstatus hnot) fun hstatus => absurd hstatus hnot'
      · exact (h.clients d).mono (Function.update_of_ne hd _ _)
          (by simp +contextual [Client.returns,pending]) (List.Subset.refl _) id
  · simp only [hcalled,Option.isSome_some,if_true]
    exact h.afterCall hn c sockid addrport

/-- A program reads from its fifo. -/
theorem InOrder.awaitAnswer (h : world.InOrder) (libc : Libc) (c : Fin n) (failed : Bool) :
    (world.step libc (.awaitAnswer c failed)).InOrder := by
  refine ⟨h.handled,h.requests,h.apart,fun d => ?_⟩
  by_cases hd : d=c
  · subst hd
    have hclient : (world.step libc (.awaitAnswer d failed)).clients d=
        (world.clients d).awaitAnswer failed := Function.update_self _ _ _
    have hall := List.Subset.refl world.handled
    rcases awaitAnswer_cases (world.clients d) failed with hsame|⟨call,hcall,hreturns⟩
    · exact (h.clients d).mono (hclient.trans hsame) (fun _ hmem _ _ => hmem) hall id
    rcases hreturns with hreturns|⟨answer,rest,hfifo,hreturns⟩
    · refine (h.clients d).returns (hclient.trans hreturns) hall ?_ ?_ <;> rintro ⟨⟩
    -- the answer is that of the manager
    obtain ⟨granted,hmem,hanswer⟩ : ∃ granted,
        ((⟨d,(world.clients d).pid,(world.clients d).socketCount,call.addrport⟩ : Ticket n),
          granted)∈world.handled ∧ answer=answerTo granted := by
      rcases (h.clients d).waits call hcall with ⟨_,hempty⟩|⟨granted,hmem,hanswer⟩
      · rw [hfifo] at hempty
        cases hempty
      · refine ⟨granted,hmem,?_⟩
        rcases hanswer with hanswer|⟨_,hempty⟩
        · rw [hfifo] at hanswer
          exact (List.cons.inj hanswer).1
        · rw [hfifo] at hempty
          cases hempty
    rcases hreturns with ⟨hgranted,hreturns⟩|⟨hdenied,hreturns⟩
    · refine (h.clients d).returns (hclient.trans hreturns) hall (fun _ => ?_) (by rintro ⟨⟩)
      have htrue : granted=true := by
        rw [hanswer] at hgranted
        cases granted with
        | true => rfl
        | false => exact absurd hgranted (by decide)
      exact ⟨call.addrport,htrue ▸ hmem,rfl,rfl⟩
    · refine (h.clients d).returns (hclient.trans hreturns) hall (by rintro ⟨⟩) fun _ => ?_
      have hfalse : granted=false := by
        rw [hanswer] at hdenied
        cases granted with
        | true => exact absurd rfl hdenied
        | false => rfl
      exact ⟨call.addrport,hfalse ▸ hmem⟩
  · exact (h.clients d).mono (Function.update_of_ne hd _ _) (fun _ hmem _ _ => hmem)
      (List.Subset.refl _) id

/-- A delivery leaves the rest of a program as it is. -/
@[simp] theorem deliver_pid (reply : FifoName × Byte) (client : Client) :
    (client.deliver reply).pid=client.pid := rfl

@[simp] theorem deliver_socketCount (reply : FifoName × Byte) (client : Client) :
    (client.deliver reply).socketCount=client.socketCount := rfl

@[simp] theorem deliver_results (reply : FifoName × Byte) (client : Client) :
    (client.deliver reply).results=client.results := rfl

/-- A char for another fifo does not reach a program. -/
theorem deliver_of_ne {reply : FifoName × Byte} {client : Client}
    (h : client.fifoName≠reply.1) : client.deliver reply=client := by
  rw [Client.deliver]
  simp only [if_neg h,Option.map_id']

/-- No two calls share a program and a number. -/
theorem InOrder.call_unique (h : world.InOrder) {first second : Ticket n}
    (hfirst : first∈world.calls) (hsecond : second∈world.calls)
    (hclient : first.client=second.client)
    (hcounter : first.socketCounter=second.socketCounter) : first=second := by
  by_contra hne
  have hsymm : Std.Symm fun first second : Ticket n =>
      first.client=second.client → first.socketCounter≠second.socketCounter :=
    ⟨fun _ _ hapart hsame heq => hapart hsame.symm heq.symm⟩
  exact h.apart.forall hfirst hsecond hne hclient hcounter

/-- No call is to be handled a second time. -/
theorem InOrder.handled_once (h : world.InOrder) {ticket : Ticket n} {granted : Bool}
    (hhandled : (ticket,granted)∈world.handled) : ticket∉world.pending := by
  intro hpending
  have hapart := h.apart
  rw [h.calls_eq] at hapart
  exact (List.pairwise_append.mp hapart).2.2 ticket (List.mem_map_of_mem hhandled) ticket hpending
    rfl rfl

/-- When the next call is handled the others remain. -/
theorem pending_afterNext {ticket : Ticket n}
    {rest : List (Ticket n)} (hpending : world.pending=ticket::rest) (libc : Libc) (env : Env) :
    (world.afterNext libc env ticket rest).pending=rest := by
  have hlen : (world.afterNext libc env ticket rest).handled.length=world.handled.length+1 := by
    simp [World.afterNext]
  have hcalls : (world.afterNext libc env ticket rest).calls=world.calls := rfl
  rw [pending,hlen,hcalls,←List.drop_drop,←pending,hpending]
  rfl

/-- A program whose own call is handled is told what was done. -/
theorem ClientSound.answered {after : World n} {c : Fin n} (h : world.ClientSound c)
    {ticket : Ticket n} {granted : Bool} {reply : Option (FifoName × Byte)}
    (hown : ∀ call,(world.clients c).call=some call → call.myFifo=[] ∧
      ticket=⟨c,(world.clients c).pid,(world.clients c).socketCount,call.addrport⟩)
    (hclient : after.clients c=
      reply.elim (world.clients c) fun reply => (world.clients c).deliver reply)
    (hreply : reply=some ((world.clients c).fifoName,answerTo granted) ∨
      reply=none ∧ after.running=false)
    (hhandled : world.handled ⊆ after.handled) (hdecided : (ticket,granted)∈after.handled) :
    after.ClientSound c := by
  have hkept : (after.clients c).pid=(world.clients c).pid ∧
      (after.clients c).socketCount=(world.clients c).socketCount ∧
      (after.clients c).results=(world.clients c).results := by
    rw [hclient]
    rcases hreply with hreply|⟨hreply,_⟩ <;> rw [hreply] <;> exact ⟨rfl,rfl,rfl⟩
  obtain ⟨hpid,hcount,hresults⟩ := hkept
  constructor
  · intro call' hcall'
    rw [hpid,hcount]
    refine Or.inr ⟨granted,?_⟩
    rw [hclient] at hcall'
    rcases hreply with hreply|⟨hreply,hstopped⟩
    · rw [hreply,Option.elim_some,Client.deliver] at hcall'
      obtain ⟨call,hcall,rfl⟩ := Option.map_eq_some_iff.mp hcall'
      obtain ⟨hempty,rfl⟩ := hown call hcall
      rw [if_pos rfl]
      exact ⟨hdecided,Or.inl (by rw [hempty]; rfl)⟩
    · rw [hreply,Option.elim_none] at hcall'
      obtain ⟨hempty,rfl⟩ := hown call' hcall'
      exact ⟨hdecided,Or.inr ⟨hstopped,hempty⟩⟩
  · intro result hresult hstatus
    rw [hresults] at hresult
    rw [hpid]
    obtain ⟨addrport,hmem,hid⟩ := h.granted result hresult hstatus
    exact ⟨addrport,hhandled hmem,hid⟩
  · intro result hresult hstatus
    rw [hresults] at hresult
    rw [hpid]
    obtain ⟨addrport,hmem⟩ := h.denied result hresult hstatus
    exact ⟨addrport,hhandled hmem⟩

/-- The manager handles the next call. -/
theorem InOrder.afterNext (h : world.InOrder) (hn : world.Numbered) {ticket : Ticket n}
    {rest : List (Ticket n)} (hpending : world.pending=ticket::rest)
    (hrunning : world.running=true) (libc : Libc) (env : Env) :
    (world.afterNext libc env ticket rest).InOrder := by
  have hleft := pending_afterNext hpending libc env
  have hwaits : ticket∈world.pending := by rw [hpending]; exact List.mem_cons_self
  have hcalls := h.calls_eq
  have hticket : ticket∈world.calls := by rw [hcalls]; exact List.mem_append_right _ hwaits
  refine ⟨⟨rest,?_⟩,?_,h.apart,fun c => ?_⟩
  · change (world.handled++[_]).map Prod.fst++rest=world.calls
    rw [hcalls,hpending,List.map_append,List.append_assoc]
    rfl
  · rw [hleft]
    rfl
  -- what the program is told
  obtain ⟨hpid,hcounter⟩ := hn.ticket_int hticket
  have hreply := bindReply_spec libc (world.meets env) world.manager
    (scanBindRequest_bindMessage libc ticket.addrport hpid hcounter)
  have hhandled : world.handled ⊆ (world.afterNext libc env ticket rest).handled :=
    List.subset_append_left _ _
  by_cases hname : (world.clients c).fifoName=getClientFifoName ticket.pid ticket.socketCounter
  · obtain ⟨hown,hcount⟩ := hn.same_call hticket hname
    refine (h.clients c).answered (fun call hcall => ?_) rfl ?_ hhandled
      (List.mem_append_right _ List.mem_cons_self)
    · rcases (h.clients c).waits call hcall with ⟨hmine,hempty⟩|⟨granted,hmem,_⟩
      · have hmine' := List.mem_append_right (world.handled.map Prod.fst) hmine
        rw [←hcalls] at hmine'
        exact ⟨hempty,h.call_unique hticket hmine' hown hcount⟩
      · have hmine := List.mem_append_left world.pending (List.mem_map_of_mem (f:=Prod.fst) hmem)
        rw [←hcalls] at hmine
        have hsame := h.call_unique hticket hmine hown hcount
        rw [hsame] at hwaits
        exact absurd hwaits (h.handled_once hmem)
    · rw [hname]
      rcases hreply with hreply|⟨hreply,_,hstops⟩
      · exact Or.inl hreply
      · exact Or.inr ⟨hreply,decide_eq_false hstops⟩
  · refine (h.clients c).mono ?_ (fun other hother hclient hcount => ?_) hhandled
      (by rw [hrunning]; rintro ⟨⟩)
    · change Option.elim _ _ _=_
      rcases hreply with hreply|⟨hreply,_⟩ <;> rw [hreply]
      · exact deliver_of_ne hname
      · rfl
    · rw [hleft]
      rw [hpending] at hother
      rcases List.mem_cons.mp hother with rfl|hrest
      · have hpid := (hn.calls other hticket).1
        rw [hclient] at hpid
        exact absurd (by rw [Client.fifoName,hpid,hcount]) hname
      · exact hrest

/-- Nothing that happens takes the order away. -/
theorem InOrder.step (h : world.InOrder) (hn : world.Numbered) (libc : Libc) (event : Event n) :
    (world.step libc event).InOrder := by
  cases event with
  | socketBind c sockid addrport opening => exact h.socketBind hn libc c sockid addrport opening
  | awaitAnswer c failed => exact h.awaitAnswer libc c failed
  | serve request =>
    rw [World.step]
    split
    · exact ⟨h.handled,h.requests,h.apart,fun c => (h.clients c).mono rfl
        (fun _ hmem _ _ => hmem) (List.Subset.refl _) id⟩
    · exact h
  | bindFifo env ending bindRequest =>
    rw [World.step]
    split
    · next hrunning =>
      cases hpending : world.pending with
      | nil =>
        obtain ⟨running,hidle⟩ := h.handleBindFifo_idle hpending libc env ending bindRequest
        rw [hidle]
        refine ⟨h.handled,h.requests,h.apart,fun c => ?_⟩
        refine (h.clients c).mono rfl (fun _ hmem _ _ => hmem) (List.Subset.refl _) ?_
        rw [hrunning]
        rintro ⟨⟩
      | cons ticket rest =>
        rw [h.handleBindFifo_next hpending]
        exact h.afterNext hn hpending hrunning libc env
    · exact h

/-- An event that changes no number of a program and adds no call. -/
theorem Numbered.of_same {after : World n} (h : world.Numbered)
    (hpid : ∀ c,(after.clients c).pid=(world.clients c).pid)
    (hcount : ∀ c,(after.clients c).socketCount=(world.clients c).socketCount)
    (hcalls : after.calls=world.calls) : after.Numbered where
  pids := by simpa only [hpid] using h.pids
  pid_int := by simpa only [hpid] using h.pid_int
  counts := by simpa only [hcount] using h.counts
  calls := by simpa only [hpid,hcount,hcalls] using h.calls

/-- The counters go on by one call at most. -/
theorem Numbered.socketBind (h : world.Numbered) (libc : Libc) {c : Fin n} (sockid : SocketID)
    (addrport : Address) (opening : Opening) (hroom : (world.clients c).socketCount < intMax) :
    (world.step libc (.socketBind c sockid addrport opening)).Numbered := by
  rw [step]
  split
  · exact h
  generalize hcalled : (world.clients c).socketBind sockid addrport opening=called
  have hcases := socketBind_cases (world.clients c) sockid addrport opening
  rw [hcalled] at hcases
  have hpid : called.1.pid=(world.clients c).pid := by
    rcases hcases with ⟨_,_,_,_,_,_,_,rfl⟩|rfl <;> rfl
  have hcount : (world.clients c).socketCount ≤ called.1.socketCount ∧
      called.1.socketCount ≤ (world.clients c).socketCount+1 := by
    rcases hcases with ⟨_,_,_,hle,hge,_,_,rfl⟩|rfl
    · exact ⟨hge,hle⟩
    · exact ⟨by simp,le_rfl⟩
  have hpids : ∀ d,(Function.update world.clients c called.1 d).pid=(world.clients d).pid := by
    intro d
    by_cases hd : d=c
    · rw [hd,Function.update_self,hpid]
    · rw [Function.update_of_ne hd]
  have hcounts : ∀ d,(world.clients d).socketCount ≤
      (Function.update world.clients c called.1 d).socketCount ∧
      (Function.update world.clients c called.1 d).socketCount ≤ intMax := by
    intro d
    by_cases hd : d=c
    · rw [hd,Function.update_self]
      exact ⟨hcount.1,by omega⟩
    · rw [Function.update_of_ne hd]
      exact ⟨le_rfl,(h.counts d).2⟩
  constructor
  · simpa only [hpids] using h.pids
  · simpa only [hpids] using h.pid_int
  · exact fun d => ⟨(h.counts d).1.trans (hcounts d).1,(hcounts d).2⟩
  · intro ticket hticket
    simp only [hpids]
    rcases List.mem_append.mp hticket with hold|hnew
    · obtain ⟨hown,hnonneg,hle⟩ := h.calls ticket hold
      exact ⟨hown,hnonneg,hle.trans (hcounts ticket.client).1⟩
    · split at hnew
      · obtain rfl := List.mem_singleton.mp hnew
        exact ⟨hpid,(h.counts c).1.trans hcount.1,by rw [Function.update_self]⟩
      · cases hnew

/-- A read changes no number. -/
theorem awaitAnswer_numbers (client : Client) (failed : Bool) :
    (client.awaitAnswer failed).pid=client.pid ∧
      (client.awaitAnswer failed).socketCount=client.socketCount := by
  rcases awaitAnswer_cases client failed with h|⟨call,_,h|⟨_,_,_,⟨_,h⟩|⟨_,h⟩⟩⟩ <;> rw [h] <;>
    exact ⟨rfl,rfl⟩

/-- Numbers stay as they should be. -/
theorem Numbered.step (h : world.Numbered) (libc : Libc) {event : Event n}
    (hproper : world.Proper event) : (world.step libc event).Numbered := by
  cases event with
  | socketBind c sockid addrport opening =>
    exact h.socketBind libc sockid addrport opening hproper.2
  | awaitAnswer c failed =>
    have hread : ∀ d,((world.step libc (.awaitAnswer c failed)).clients d).pid=
          (world.clients d).pid ∧
        ((world.step libc (.awaitAnswer c failed)).clients d).socketCount=
          (world.clients d).socketCount := by
      intro d
      have hclients : (world.step libc (.awaitAnswer c failed)).clients=
          Function.update world.clients c ((world.clients c).awaitAnswer failed) := rfl
      rw [hclients]
      by_cases hd : d=c
      · rw [hd,Function.update_self]
        exact awaitAnswer_numbers _ _
      · rw [Function.update_of_ne hd]
        exact ⟨rfl,rfl⟩
    exact h.of_same (fun d => (hread d).1) (fun d => (hread d).2) rfl
  | serve request =>
    rw [World.step]
    split
    · exact h.of_same (fun _ => rfl) (fun _ => rfl) rfl
    · exact h
  | bindFifo env ending bindRequest =>
    rw [World.step]
    split
    · refine h.of_same (fun d => ?_) (fun d => ?_) rfl
      all_goals
        unfold handleBindFifo
        dsimp only
        cases bindFifoReply _ _ _ _ _ <;> rfl
    · exact h

/-- A manager at the start of its loop with an empty bind fifo, and programs
that have not called it yet. -/
structure Fresh (world : World n) : Prop where
  /-- The bind fifo is empty. -/
  requests : world.requests=[]
  /-- Nobody has called. -/
  calls : world.calls=[]
  /-- Nothing was handled. -/
  handled : world.handled=[]
  /-- No program waits or was answered. -/
  idle : ∀ c,(world.clients c).call=none ∧ (world.clients c).results=[]

/-- Any number of programs call `SocketBind` at one manager, any number of
times; their calls, their reads, the manager's looks at its bind fifo and
everything else that it serves come in any order, and calls of the system
fail as they like. Then the manager handles the calls in the order in which
they were made, each once; a program that waits finds the answer to its own
call as soon as that is handled, unless the manager stopped at it; and success
is returned only for a call for which a socket with the port's key was added,
REQUEST_DENIED only for one for which none was. -/
theorem binds_in_order (libc : Libc) {world : World n} (hfresh : world.Fresh)
    (hnumbered : world.Numbered) (events : List (Event n))
    (hproper : EachStep (World.step libc) Proper world events) :
    EachState (World.step libc) InOrder world events := by
  have hstart : world.InOrder := by
    have hpending : world.pending=[] := by rw [pending,hfresh.calls,List.drop_nil]
    refine ⟨?_,?_,?_,fun c => ⟨?_,?_,?_⟩⟩
    · rw [hfresh.handled]
      exact List.nil_prefix
    · rw [hpending,hfresh.requests]
      rfl
    · rw [hfresh.calls]
      exact List.Pairwise.nil
    all_goals
      obtain ⟨hcall,hresults⟩ := hfresh.idle c
    · intro call hsome
      rw [hcall] at hsome
      cases hsome
    · intro result hmem
      rw [hresults] at hmem
      cases hmem
    · intro result hmem
      rw [hresults] at hmem
      cases hmem
  have hall := eachState_of_guarded (P:=fun world : World n => world.InOrder ∧ world.Numbered)
    (fun world event h hproper => ⟨h.1.step h.2 libc event,h.2.step libc hproper⟩)
    ⟨hstart,hnumbered⟩ hproper
  exact eachState_imp (fun _ h => h.1) hall

theorem isInt_8080 : IsInt 8080 := ⟨by decide,by decide⟩

/-- Two programs want the same port. The second is the first to call. -/
def samePort : List (Event 2) :=
  let env := smoothEnv 0 none
  let works : Opening := ⟨true,true,true,true⟩
  let port : Address := ⟨onesIp,8080,onesPortZero.length_addr,isInt_8080⟩
  let first : Fin 2 := ⟨0,Nat.zero_lt_two⟩
  let second : Fin 2 := ⟨1,Nat.one_lt_two⟩
  [.socketBind second socketCreate port works,.socketBind first socketCreate port works,
    .bindFifo env .again fun _ => 0,.awaitAnswer first false,.bindFifo env .again fun _ => 0,
    .awaitAnswer first false,.awaitAnswer second false]

/-- A manager and two programs. -/
def freshWorld : World 2 :=
  ⟨createNetworkManager onesIp fun _ => false,true,[],fun c => ⟨c.val+1,0,none,[]⟩,[],[]⟩

theorem binds_in_order_samePort :
    let libc := zeroLibc
    EachState (World.step libc) InOrder freshWorld samePort := by
  intro libc
  refine binds_in_order libc ⟨rfl,rfl,rfl,fun _ => ⟨rfl,rfl⟩⟩ ?_ samePort ?_
  · refine ⟨?_,?_,?_,by rintro _ ⟨⟩⟩
    · intro c d h
      simpa [freshWorld,Fin.ext_iff] using h
    · intro c
      have hlt := c.isLt
      exact ⟨by simp only [freshWorld,intMin]; omega,by simp only [freshWorld,intMax]; omega⟩
    · exact fun _ => ⟨le_rfl,by simp only [freshWorld]; decide⟩
  · exact ⟨⟨rfl,by decide⟩,⟨rfl,by decide⟩,trivial,trivial,trivial,trivial,trivial,trivial⟩

example : let libc := zeroLibc
    let last := run (World.step libc) freshWorld samePort
    ((last.clients 0).results.map BindResult.status,
      (last.clients 1).results.map BindResult.status)=
        ([some .requestDenied],[some .success]) := by
  decide +kernel

end World

end NetworkLayer.BindCalls
