import NetworkLayer.BindCalls
import NetworkLayer.FifoCalls

/-!
# Listen calls and the visits that serve them

`SocketListen` and `check_and_handle_listen_request` as the system calls that
they make. Each opens two fifos, and waits in one of the opens until the other
has come there too.
-/

namespace NetworkLayer.ListenCalls

open ByteStrings UtilTypes Hashmap FifoUtils PacketDispatch BindCalls FifoCalls
open SocketRequests (pointerTo pointerTo_spec)

/-- `SocketListen`, when it has its answer or gives up. -/
def leaveListen (sockid : SocketID) (listenFifoReadFd : Fd FifoName) (status : Status) :
    Prog FifoName Byte (Option Status) :=
  calling [.close listenFifoReadFd .reading,.unlink (getListenFifoReadEndName sockid),
    .unlink (getListenFifoWriteEndName sockid)] (.done (some status))

/-- Its wait for the answer. So many reads more may find that the manager has
gone before the time is over. -/
def awaitListenAnswer (sockid : SocketID) (listenFifoReadFd : Fd FifoName) :
    ℕ → Prog FifoName Byte (Option Status)
  | 0 => .call (.read listenFifoReadFd) fun
    | some answer => leaveListen sockid listenFifoReadFd
      (if answer=requestGrantedFifo then .success else .requestDenied)
    | none => leaveListen sockid listenFifoReadFd .timedOut
  | polls+1 => .call (.read listenFifoReadFd) fun
    | some answer => leaveListen sockid listenFifoReadFd
      (if answer=requestGrantedFifo then .success else .requestDenied)
    | none => awaitListenAnswer sockid listenFifoReadFd polls

/-- Its request, once both fifos are open. -/
def requestListen (sockid : SocketID) (message : Byte) (polls : ℕ)
    (listenFifoReadFd listenFifoWriteFd : Fd FifoName) : Prog FifoName Byte (Option Status) :=
  .call (.write listenFifoWriteFd [message]) fun
    | .whole => .call (.close listenFifoWriteFd .writing) fun _ =>
      awaitListenAnswer sockid listenFifoReadFd polls
    | .failed => calling [.close listenFifoWriteFd .writing]
      (leaveListen sockid listenFifoReadFd .memoryError)
    | .killed => calling [.close listenFifoWriteFd .writing,.close listenFifoReadFd .reading]
      (.done none)

/-- The open of the fifo for the request. -/
def openListenWrite (sockid : SocketID) (message : Byte) (polls : ℕ)
    (listenFifoReadFd : Fd FifoName) : Prog FifoName Byte (Option Status) :=
  openFifo (getListenFifoWriteEndName sockid) .writing fun
    | none => leaveListen sockid listenFifoReadFd .memoryError
    | some listenFifoWriteFd =>
      requestListen sockid message polls listenFifoReadFd listenFifoWriteFd

/-- The open of the fifo for the answer, which comes first. -/
def openListenRead (sockid : SocketID) (message : Byte) (polls : ℕ) :
    Prog FifoName Byte (Option Status) :=
  openFifo (getListenFifoReadEndName sockid) .reading fun
    | none => calling [.unlink (getListenFifoReadEndName sockid),
        .unlink (getListenFifoWriteEndName sockid)] (.done (some .memoryError))
    | some listenFifoReadFd => openListenWrite sockid message polls listenFifoReadFd

/-- The second of the two fifos is made. -/
def makeListenRead (sockid : SocketID) (message : Byte) (polls : ℕ) :
    Prog FifoName Byte (Option Status) :=
  .call (.mkfifo (getListenFifoReadEndName sockid)) fun (made : Bool) =>
    if made=true then openListenRead sockid message polls else .done (some .memoryError)

/-- `(char)queueLimit`, for a limit that passes the check. -/
def limitMessage (queueLimit : ℤ) : Byte := UInt8.ofNat queueLimit.toNat

/-- `SocketListen`, with the status that it returns, unless a signal ends the
process. -/
def socketListen (sockid : SocketID) (queueLimit : ℤ) (polls : ℕ) :
    Prog FifoName Byte (Option Status) :=
  if queueLimit < 0 ∨ queueLimit > 100 then .done (some .invalidArgument)
  else if getSocketState sockid≠.boundOnly then .done (some .invalidArgument)
  else .call (.mkfifo (getListenFifoWriteEndName sockid)) fun (made : Bool) =>
    if made=true then makeListenRead sockid (limitMessage queueLimit) polls
    else .done (some .memoryError)

/-- The socket after a listen request. -/
def listening (sock : Socket) (request : Byte) (state : TCPState) : Socket :=
  {sock with state := state,maxConnections := charValue request}

/-- `check_and_handle_listen_request` from the answer on. -/
def answerListen (sock : Socket) (request : Byte)
    (listenFifoReadFd listenFifoWriteFd : Fd FifoName) : Prog FifoName Byte (Option Socket) :=
  .call (.write listenFifoReadFd [requestGrantedFifo]) fun
    | .whole => calling [.close listenFifoWriteFd .reading,.close listenFifoReadFd .writing]
      (.done (some (listening sock request .listen)))
    | .failed => calling [.close listenFifoWriteFd .reading,.close listenFifoReadFd .writing]
      (.done (some (listening sock request .closed)))
    | .killed => calling [.close listenFifoWriteFd .reading,.close listenFifoReadFd .writing]
      (.done none)

/-- From the accept fifo on. Where it cannot be made its name is freed twice,
which ends the process. -/
def makeAccept (sockId : SocketID) (sock : Socket) (request : Byte)
    (listenFifoReadFd listenFifoWriteFd : Fd FifoName) : Prog FifoName Byte (Option Socket) :=
  .call (.mkfifo (getAcceptFifoWriteEndName sockId)) fun (made : Bool) =>
    if made=true then answerListen sock request listenFifoReadFd listenFifoWriteFd
    else calling [.close listenFifoWriteFd .reading,.close listenFifoReadFd .writing] (.done none)

/-- From the read of the request on. -/
def readListen (sockId : SocketID) (sock : Socket)
    (listenFifoReadFd listenFifoWriteFd : Fd FifoName) : Prog FifoName Byte (Option Socket) :=
  .call (.read listenFifoWriteFd) fun
    | some request => makeAccept sockId sock request listenFifoReadFd listenFifoWriteFd
    | none => calling [.close listenFifoWriteFd .reading,.close listenFifoReadFd .writing]
      (.done (some sock))

/-- From the open of the fifo for the request on. -/
def openListenRequest (sockId : SocketID) (sock : Socket) (listenFifoReadFd : Fd FifoName) :
    Prog FifoName Byte (Option Socket) :=
  openFifo (getListenFifoWriteEndName sockId) .reading fun
    | none => .done (some sock)
    | some listenFifoWriteFd => readListen sockId sock listenFifoReadFd listenFifoWriteFd

/-- `check_and_handle_listen_request`, with the socket that it leaves, unless
the process ends in it. -/
def checkAndHandleListenRequest (sockId : SocketID) (sock : Socket) :
    Prog FifoName Byte (Option Socket) :=
  if sock.state=.listen then .done (some sock)
  else .call (.openWriter (getListenFifoReadEndName sockId)) fun
    | none => .done (some sock)
    | some listenFifoReadFd => openListenRequest sockId sock listenFifoReadFd

/-- The visits of the manager, one after the other, as long as it lives. -/
def visits (sockId : SocketID) : Option Socket → Prog FifoName Byte (Option Socket)
  | none => .done none
  | some sock => checkAndHandleListenRequest sockId sock

/-- A visit that returns has found nothing to do or no request, or has answered
one. -/
theorem checkAndHandleListenRequest_cases {sockId : SocketID} {sock sock' : Socket}
    (h : Returns (checkAndHandleListenRequest sockId sock) (some sock')) :
    sock'=sock ∨ sock.state≠.listen ∧ ∃ request,∃ written : Bool,
      sock'=listening sock request (if written=true then .listen else .closed) := by
  rw [checkAndHandleListenRequest] at h
  split at h
  case isTrue => exact .inl (Option.some.inj (returns_done.mp h))
  case isFalse hstate =>
    obtain ⟨opened,h⟩ := returns_call.mp h
    match opened with
    | none => exact .inl (Option.some.inj (returns_done.mp h))
    | some readFd =>
      obtain ⟨entered,h⟩ := returns_call.mp h
      match entered with
      | none => exact .inl (Option.some.inj (returns_done.mp h))
      | some (writeFd,_) =>
        obtain ⟨_,h⟩ := returns_call.mp h
        obtain ⟨read,h⟩ := returns_call.mp h
        match read with
        | none => exact .inl (Option.some.inj (returns_done.mp (returns_calling h)))
        | some request =>
          obtain ⟨made,h⟩ := returns_call.mp h
          split at h
          case isTrue =>
            obtain ⟨written,h⟩ := returns_call.mp h
            match written with
            | .whole =>
              exact .inr ⟨hstate,request,true,Option.some.inj (returns_done.mp (returns_calling h))⟩
            | .failed =>
              exact .inr ⟨hstate,request,false,Option.some.inj (returns_done.mp (returns_calling h))⟩
            | .killed => exact absurd (returns_done.mp (returns_calling h)) (Option.some_ne_none _)
          case isFalse => exact absurd (returns_done.mp (returns_calling h)) (Option.some_ne_none _)

/-- So it leaves the socket as the handler as a whole stores it, where the
accept fifo can be made. -/
theorem checkAndHandleListenRequest_stores {sockId : SocketID} {sock sock' : Socket}
    (h : Returns (checkAndHandleListenRequest sockId sock) (some sock')) :
    ∃ request written,∀ env manager i,pointerTo manager.sockets sockId=some (i,sock) →
      (mkfifo env manager.files (getAcceptFifoWriteEndName sockId)).1=true →
      env.writeWorks (getListenFifoReadEndName sockId)=written →
      (SocketRequests.checkAndHandleListenRequest env manager sockId
        request).manager.sockets.table i=some sock' := by
  rcases checkAndHandleListenRequest_cases h with rfl|⟨hstate,request,written,rfl⟩
  · refine ⟨none,true,?_⟩
    intro env manager i hpointer _ _
    have hnothing : SocketRequests.checkAndHandleListenRequest env manager sockId none=
        returned 0 manager := by
      rw [SocketRequests.checkAndHandleListenRequest]
      exact fun _ _ _ _ hrequest => absurd hrequest.symm (Option.some_ne_none _)
    rw [hnothing]
    exact (pointerTo_spec hpointer).2.1
  · refine ⟨some request,written,?_⟩
    intro env manager i hpointer hmade hwritten
    simp only [SocketRequests.checkAndHandleListenRequest,hpointer,if_neg hstate,hmade,hwritten,
      true_and]
    have hstored := (pointerTo_spec hpointer).2.1
    exact (congrFun (HashMap.setSocket_table hstored _) i).trans (Function.update_self ..)

end NetworkLayer.ListenCalls
