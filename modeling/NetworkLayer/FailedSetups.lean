import NetworkLayer.FifoFiles
import NetworkLayer.SocketRequests

/-!
# What a failed set-up leaves behind

Binding a port, answering a SYN and completing a connect each make two end
fifos and then do one thing more. Where this fails, or the fifos cannot be
made, files may be left or lost. When exactly they are is worked out here, for
every table and every set of files.
-/

namespace NetworkLayer.FailedSetups

open ByteStrings UtilTypes Hashmap FifoUtils TcpPackets PacketHandlers PacketDispatch
open SocketRequests FifoFiles

/-- Neither end fifo of the socket exists. -/
def EndFifosAbsent (files : Files) (id : SocketID) : Prop :=
  files (getEndFifoReadEndName id)=false ∧ files (getEndFifoWriteEndName id)=false

/-- The fifos that `unlink_socket_fifos` unlinks. -/
def socketFifoNames (id : SocketID) : List FifoName :=
  [getListenFifoReadEndName id,getListenFifoWriteEndName id,getAcceptFifoWriteEndName id,
    getSocketSendFifoName id,getSocketRecvFifoName id,getEndFifoReadEndName id,
    getEndFifoWriteEndName id]

/-- A new socket with the key can be inserted. -/
def Insertable (m : HashMap) (id : SocketID) : Prop :=
  m.numberOfSockets≠hashMapDefaultSize ∧ m.hasKey id=false

/-- `create_socket_end_fifos` makes both files and returns 0, or it leaves all
files as they are. -/
def CreatesBothOrNeither (env : Env) (files : Files) (id : SocketID) : Prop :=
  ((createSocketEndFifos env files id).1=true → EndFifosAbsent files id ∧
    (createSocketEndFifos env files id).2=
      Function.update (Function.update files (getEndFifoReadEndName id) true)
        (getEndFifoWriteEndName id) true) ∧
  ((createSocketEndFifos env files id).1=false → (createSocketEndFifos env files id).2=files)

/-- A failed bind leaves the table and the files as they are. -/
def FailedBindTraceless (env : Env) (manager : NetworkManager) (id : SocketID) : Prop :=
  (bindNewSocket env manager id).1≠0 → (bindNewSocket env manager id).2=manager

/-- A listening socket that gets no new connection leaves the table, its
number of free places and the files as they are. -/
def FailedListenTraceless (env : Env) (manager : NetworkManager) (s : Socket)
    (packet : TCPPacket) (srcIp : CString) : Prop :=
  let handled := handlePacketListen env manager s packet srcIp
  handled.manager.sockets.numberOfSockets≠manager.sockets.numberOfSockets+1 →
    handled.manager=manager ∧ handled.socket=s

/-- A client that is not told of its connection leaves the table and the files
as they are. -/
def FailedNotifyTraceless (env : Env) (manager : NetworkManager) (s : Socket) : Prop :=
  (notifyConnectClient env manager s).1=false → (notifyConnectClient env manager s).2=manager

/-- Files that can be made do not exist. -/
theorem EndFifosAbsent.of_free {env : Env} {files : Files} {id : SocketID}
    (h : EndFifosFree env files id) : EndFifosAbsent files id := ⟨h.1.2,h.2.2⟩

/-- A manager changes with its files only. -/
theorem withFiles_eq_iff (manager : NetworkManager) (files : Files) :
    {manager with files := files}=manager ↔ files=manager.files := by
  cases manager
  simp

/-- The end fifos are unlinked without a trace where neither exists. -/
theorem unlink_ends_iff (files : Files) (id : SocketID) :
    [getEndFifoReadEndName id,getEndFifoWriteEndName id].foldl unlink files=files ↔
      EndFifosAbsent files id := by
  rw [foldl_unlink_eq_self_iff,EndFifosAbsent]
  simp

/-- New end fifos are a change. -/
theorem created_ne {env : Env} {files : Files} {id : SocketID} (h : EndFifosFree env files id) :
    Function.update (Function.update files (getEndFifoReadEndName id) true)
      (getEndFifoWriteEndName id) true≠files := by
  intro he
  have hat := congrFun he (getEndFifoWriteEndName id)
  rw [Function.update_self,h.2.2] at hat
  cases hat

/-- Both files or neither: exactly where neither was there before. -/
theorem createsBothOrNeither_iff (env : Env) (files : Files) (id : SocketID) :
    CreatesBothOrNeither env files id ↔ EndFifosAbsent files id := by
  unfold CreatesBothOrNeither
  rcases createSocketEndFifos_files env files id with
    ⟨hresult,hfree,hfiles⟩|⟨hresult,_,hfiles⟩
  · have habsent := EndFifosAbsent.of_free hfree
    simp [hresult,hfiles,habsent]
  · simp only [hresult,hfiles,unlink_ends_iff]
    simp

/-- A failed bind leaves no trace exactly where neither end fifo was there
before and the insertion does not fail behind them. -/
theorem failedBindTraceless_iff (env : Env) (manager : NetworkManager) (id : SocketID) :
    FailedBindTraceless env manager id ↔ EndFifosAbsent manager.files id ∧
      (EndFifosFree env manager.files id → Insertable manager.sockets id) := by
  unfold FailedBindTraceless bindNewSocket createBoundSocket
  rcases createSocketEndFifos_files env manager.files id with
    ⟨hresult,hfree,hfiles⟩|⟨hresult,hnot,hfiles⟩
  · have habsent := EndFifosAbsent.of_free hfree
    simp only [hresult,hfiles,if_true]
    rcases manager.sockets.insertSocket_cases (createNewSocket env.now id .closed) with
      ⟨he,hrefused⟩|⟨j,hj,he,hroom,hnew⟩
    · have hnot : ¬Insertable manager.sockets id := by
        rintro ⟨hroom,hkey⟩
        rcases hrefused with hfull|htaken
        · exact hroom hfull
        · exact absurd (htaken.symm.trans hkey) (by decide)
      simp only [he,Bool.false_eq_true,if_false,withFiles_eq_iff]
      simp [hnot,hfree,created_ne hfree]
    · simp [he,habsent,Insertable,hroom,show manager.sockets.hasKey id=false from hnew]
  · simp only [hresult,hfiles,Bool.false_eq_true,if_false,withFiles_eq_iff,unlink_ends_iff]
    simp [hnot]

/-- Unlinking all fifos of a socket whose end fifos were just made restores
the files exactly where none of them was there before. -/
theorem unlink_created_iff (files : Files) (id : SocketID) :
    unlinkSocketFifos (Function.update (Function.update files (getEndFifoReadEndName id) true)
      (getEndFifoWriteEndName id) true) id=files ↔ ∀ name∈socketFifoNames id,files name=false := by
  have hread : getEndFifoReadEndName id∈socketFifoNames id := by simp [socketFifoNames]
  have hwrite : getEndFifoWriteEndName id∈socketFifoNames id := by simp [socketFifoNames]
  have hunlinked : unlinkSocketFifos (Function.update (Function.update files
      (getEndFifoReadEndName id) true) (getEndFifoWriteEndName id) true) id=
      (socketFifoNames id).foldl unlink files := by
    funext name
    have hname := foldl_unlink (socketFifoNames id) (Function.update (Function.update files
      (getEndFifoReadEndName id) true) (getEndFifoWriteEndName id) true) name
    refine hname.trans ?_
    rw [foldl_unlink]
    split
    · rfl
    · next hnot =>
      have hneread : name≠getEndFifoReadEndName id := fun he => hnot (he ▸ hread)
      have hnewrite : name≠getEndFifoWriteEndName id := fun he => hnot (he ▸ hwrite)
      rw [Function.update_of_ne hnewrite,Function.update_of_ne hneread]
  rw [hunlinked,foldl_unlink_eq_self_iff]

/-- A connection that a listening socket fails to make leaves no trace exactly
where neither end fifo was there before, and the insertion does not fail
behind them or finds no other fifo to unlink either. -/
theorem failedListenTraceless_iff (env : Env) (manager : NetworkManager) (s : Socket)
    (packet : TCPPacket) (srcIp : CString) :
    FailedListenTraceless env manager s packet srcIp ↔
      (packet.has synFlag=true → s.maxConnections≠0 →
        EndFifosAbsent manager.files (connectionId s packet srcIp) ∧
          (EndFifosFree env manager.files (connectionId s packet srcIp) →
            Insertable manager.sockets (connectionId s packet srcIp) ∨
              ∀ name∈socketFifoNames (connectionId s packet srcIp),manager.files name=false)) := by
  unfold FailedListenTraceless
  rw [handlePacketListen_eq]
  by_cases hsyn : packet.has synFlag=false
  · simp [hsyn]
  rw [if_neg hsyn]
  by_cases hmax : s.maxConnections=0
  · simp [hmax]
  rw [if_neg hmax]
  replace hsyn : packet.has synFlag=true := by simpa using hsyn
  simp only [hsyn,hmax,ne_eq,not_false_eq_true,forall_const]
  rcases createSocketEndFifos_files env manager.files (connectionId s packet srcIp) with
    ⟨hresult,hfree,hfiles⟩|⟨hresult,hnot,hfiles⟩
  · have habsent := EndFifosAbsent.of_free hfree
    have hkey : (newConnection env s packet srcIp).id=connectionId s packet srcIp := rfl
    rw [if_neg (by simp [hresult]),hfiles]
    rcases manager.sockets.insertSocket_cases (newConnection env s packet srcIp) with
      ⟨he,hrefused⟩|⟨j,hj,he,hroom,hnew⟩
    · have hnot : ¬Insertable manager.sockets (connectionId s packet srcIp) := by
        rintro ⟨hroom,hkey'⟩
        rcases hrefused with hfull|htaken
        · exact hroom hfull
        · exact absurd (htaken.symm.trans hkey') (by decide)
      rw [if_pos (by rw [he])]
      simp only [quiet_manager,quiet_socket,withFiles_eq_iff,unlink_created_iff]
      simp [habsent,hfree,hnot]
    · have hinsert : Insertable manager.sockets (connectionId s packet srcIp) := ⟨hroom,hnew⟩
      rw [if_neg (by simp [he])]
      simp [he,habsent,hinsert,HashMap.fill]
  · rw [if_pos hresult]
    simp only [hfiles,quiet_manager,quiet_socket,withFiles_eq_iff,unlink_ends_iff]
    simp [hnot]

/-- A client that is not told of its connection leaves no trace exactly where
neither end fifo was there before and the message does not fail behind them. -/
theorem failedNotifyTraceless_iff (env : Env) (manager : NetworkManager) (s : Socket) :
    FailedNotifyTraceless env manager s ↔ EndFifosAbsent manager.files s.id ∧
      (EndFifosFree env manager.files s.id →
        env.writeWorks (getConnectFifoReadEndName s.id.boundOnly)=true) := by
  unfold FailedNotifyTraceless notifyConnectClient
  rcases createSocketEndFifos_files env manager.files s.id with
    ⟨hresult,hfree,hfiles⟩|⟨hresult,hnot,hfiles⟩
  · have habsent := EndFifosAbsent.of_free hfree
    simp only [hresult,hfiles,if_true,withFiles_eq_iff]
    simp [habsent,hfree,created_ne hfree]
  · simp only [hresult,hfiles,Bool.false_eq_true,if_false,withFiles_eq_iff,unlink_ends_iff]
    simp [hnot]

/-- When a failed set-up leaves no trace, for the end fifos by themselves and
for the three that make them: neither end fifo may be there before, and what
comes behind the fifos may not fail, but for a connection that a listening
socket fails to insert, where no other fifo of its key may be there. -/
theorem failed_setup_traceless_iff (env : Env) (manager : NetworkManager) (id : SocketID)
    (s : Socket) (packet : TCPPacket) (srcIp : CString) :
    (CreatesBothOrNeither env manager.files id ↔ EndFifosAbsent manager.files id) ∧
    (FailedBindTraceless env manager id ↔ EndFifosAbsent manager.files id ∧
      (EndFifosFree env manager.files id → Insertable manager.sockets id)) ∧
    (FailedListenTraceless env manager s packet srcIp ↔
      (packet.has synFlag=true → s.maxConnections≠0 →
        EndFifosAbsent manager.files (connectionId s packet srcIp) ∧
          (EndFifosFree env manager.files (connectionId s packet srcIp) →
            Insertable manager.sockets (connectionId s packet srcIp) ∨
              ∀ name∈socketFifoNames (connectionId s packet srcIp),
                manager.files name=false))) ∧
    (FailedNotifyTraceless env manager s ↔ EndFifosAbsent manager.files s.id ∧
      (EndFifosFree env manager.files s.id →
        env.writeWorks (getConnectFifoReadEndName s.id.boundOnly)=true)) :=
  ⟨createsBothOrNeither_iff env manager.files id,failedBindTraceless_iff env manager id,
    failedListenTraceless_iff env manager s packet srcIp,failedNotifyTraceless_iff env manager s⟩

/-- The identity of a socket bound to port 5000. -/
def id5000 : SocketID := ⟨5000,emptyPort,onesIp,emptyIp⟩

/-- The read end of its end fifo is left from before. -/
def leftover : Files := fun name => decide (name=getEndFifoReadEndName id5000)

/-- Making the end fifos fails on the file that is there, and deletes it. -/
theorem leftover_deleted :
    let env := smoothEnv 0 none
    let manager : NetworkManager := ⟨id5000.srcIp,createHashMap,leftover⟩
    leftover (getEndFifoReadEndName id5000)=true ∧
      (bindNewSocket env manager id5000).1=-1 ∧
      (bindNewSocket env manager id5000).2.files (getEndFifoReadEndName id5000)=false ∧
      ¬CreatesBothOrNeither env leftover id5000 ∧ ¬FailedBindTraceless env manager id5000 := by
  intro env manager
  have hthere : leftover (getEndFifoReadEndName id5000)=true := decide_eq_true rfl
  have hpresent : ¬EndFifosAbsent leftover id5000 := by
    rintro ⟨hread,_⟩
    exact absurd (hthere.symm.trans hread) (by decide)
  refine ⟨hthere,?_,?_,fun h => hpresent ((createsBothOrNeither_iff _ _ _).mp h),
    fun h => hpresent ((failedBindTraceless_iff _ _ _).mp h).1⟩
  · decide +kernel
  · decide +kernel

end NetworkLayer.FailedSetups
