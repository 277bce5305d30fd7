import NetworkLayer.FormattedText
import NetworkLayer.UtilTypes

/-!
# Fifo files and the environment

Sockets talk to their users through named fifos in one directory. The state
here is the set of existing files; other processes create and remove files
too, and a call may fail for reasons of its own. Everything the manager's
functions are told from outside during one call is one `Env`.
-/

namespace NetworkLayer.FifoUtils

open ByteStrings FormattedText UtilTypes

/-- A path of a fifo. -/
abbrev FifoName := List Byte

/-- The fifo files that exist. -/
abbrev Files := FifoName → Bool

/-- Results of `send_TCP_packet`: 0, -1 and -2 in the source. -/
inductive SendResult
  | ok | error | recipientNotFound
  deriving DecidableEq,Repr

/-- What the world outside answers during one call of a manager function. -/
structure Env where
  /-- `clock()`. -/
  now : ℤ
  /-- `rand()`, between 0 and `RAND_MAX`. -/
  rand : Fin 2147483648
  /-- Whether `mkfifo` works on a name that is still free. -/
  mkfifoWorks : FifoName → Bool
  /-- Whether a short message to a fifo can be opened and written. -/
  writeWorks : FifoName → Bool
  /-- How many bytes the user's receive fifo takes, or none if it cannot be
  opened or written. -/
  taken : Option ℕ
  /-- How sending a packet ends, by the place of the call in the function. -/
  sendResult : ℕ → SendResult
  /-- The bytes waiting in the user's send fifo, or none if it cannot be
  opened. -/
  waiting : Option (List Byte)

/-- An environment in which every call succeeds: the user's fifo takes all
bytes and every packet reaches the network. -/
def smoothEnv (now : ℤ) (waiting : Option (List Byte)) : Env where
  now := now
  rand := 0
  mkfifoWorks := fun _ => true
  writeWorks := fun _ => true
  taken := some 1024
  sendResult := fun _ => .ok
  waiting := waiting

/-- `mkfifo`: fails on an existing name. -/
def mkfifo (env : Env) (files : Files) (name : FifoName) : Bool × Files :=
  if env.mkfifoWorks name=true ∧ files name=false then (true,Function.update files name true)
  else (false,files)

/-- `unlink`. -/
def unlink (files : Files) (name : FifoName) : Files := Function.update files name false

/-- `FIFO_FOLDER_PATH_PREFIX`. -/
def fifoFolderPathPrefix : List Byte := text "/tmp/vnetwork_fifos/"

/-- `add_folder_prefix`. -/
def addFolderPrefix (s : List Byte) : List Byte := fifoFolderPathPrefix++s

/-- `construct_full_fifo_name`. -/
def constructFullFifoName (stem s : List Byte) : FifoName := addFolderPrefix (stem++s)

/-- `get_terminate_fifo_name`. -/
def getTerminateFifoName (ip : CString) : FifoName :=
  constructFullFifoName (text "vnetwork_terminate_") ip.chars

/-- `get_in_packet_fifo_name`. -/
def getInPacketFifoName (ip : CString) : FifoName :=
  constructFullFifoName (text "vnetwork_in_packets_") ip.chars

/-- `get_bind_requests_fifo_name`. -/
def getBindRequestsFifoName (ip : CString) : FifoName :=
  constructFullFifoName (text "vnetwork_bind_requests_") ip.chars

/-- `get_connect_requests_fifo_name`. -/
def getConnectRequestsFifoName (ip : CString) : FifoName :=
  constructFullFifoName (text "vnetwork_connect_requests_") ip.chars

/-- `construct_full_socket_fifo_name`: the four parts of the identity between
underscores, in parentheses. -/
def constructFullSocketFifoName (stem : List Byte) (sockId : SocketID) : FifoName :=
  constructFullFifoName stem
    (text "("++sockId.srcIp.chars++text "_"++printInt sockId.srcPort++text "_"++
      sockId.dstIp.chars++text "_"++printInt sockId.dstPort++text ")")

/-- `get_listen_fifo_read_end_name`. -/
def getListenFifoReadEndName : SocketID → FifoName :=
  constructFullSocketFifoName (text "vnetwork_listen_socket_read_")

/-- `get_listen_fifo_write_end_name`. -/
def getListenFifoWriteEndName : SocketID → FifoName :=
  constructFullSocketFifoName (text "vnetwork_listen_socket_write_")

/-- `get_accept_fifo_write_end_name`. -/
def getAcceptFifoWriteEndName : SocketID → FifoName :=
  constructFullSocketFifoName (text "vnetwork_accept_socket_read_")

/-- `get_connect_fifo_read_end_name`. -/
def getConnectFifoReadEndName : SocketID → FifoName :=
  constructFullSocketFifoName (text "vnetwork_connect_soket_read_")

/-- `get_connect_fifo_write_end_name`. -/
def getConnectFifoWriteEndName : SocketID → FifoName :=
  constructFullSocketFifoName (text "vnetwork_connect_socket_write_")

/-- `get_socket_recv_fifo_name`. -/
def getSocketRecvFifoName : SocketID → FifoName :=
  constructFullSocketFifoName (text "vnetwork_in_data_socket_read_")

/-- `get_end_fifo_read_end_name`. -/
def getEndFifoReadEndName : SocketID → FifoName :=
  constructFullSocketFifoName (text "vnetwork_end_socket_read_")

/-- `get_end_fifo_write_end_name`. -/
def getEndFifoWriteEndName : SocketID → FifoName :=
  constructFullSocketFifoName (text "vnetwork_end_socket_write_")

/-- `get_socket_send_fifo_name`. -/
def getSocketSendFifoName : SocketID → FifoName :=
  constructFullSocketFifoName (text "vnetwork_out_data_")

/-- `get_client_fifo_name`. -/
def getClientFifoName (pid socketCounter : ℤ) : FifoName :=
  constructFullFifoName (text "vnetwork_nonbound_client_")
    (printInt pid++text "_"++printInt socketCounter)

/-- `create_socket_end_fifos`: whether it succeeded, and the files after it.
The second file is tried only after the first was made; on any failure both
names are unlinked. -/
def createSocketEndFifos (env : Env) (files : Files) (sockId : SocketID) : Bool × Files :=
  let endFifoReadName := getEndFifoReadEndName sockId
  let endFifoWriteName := getEndFifoWriteEndName sockId
  let first := mkfifo env files endFifoReadName
  let second := mkfifo env first.2 endFifoWriteName
  if first.1=true then
    if second.1=true then (true,second.2)
    else (false,unlink (unlink second.2 endFifoReadName) endFifoWriteName)
  else (false,unlink (unlink first.2 endFifoReadName) endFifoWriteName)

/-- `unlink_socket_fifos`. -/
def unlinkSocketFifos (files : Files) (sockId : SocketID) : Files :=
  [getListenFifoReadEndName sockId,getListenFifoWriteEndName sockId,
    getAcceptFifoWriteEndName sockId,getSocketSendFifoName sockId,
    getSocketRecvFifoName sockId,getEndFifoReadEndName sockId,
    getEndFifoWriteEndName sockId].foldl unlink files

/-- `unlink_socket_fifos_server_side`, as far as names go. The byte that it
writes to the partner's receive fifo is `UserStreams.partnerMark`. -/
def unlinkSocketFifosServerSide (files : Files) (sockId : SocketID) : Files :=
  [getEndFifoWriteEndName sockId,getAcceptFifoWriteEndName sockId,
    getSocketSendFifoName sockId,getSocketRecvFifoName sockId].foldl unlink files

/-- `write_string_to_fifo_name` to the user's receive fifo: none for -1,
otherwise how many of the `len` bytes were written. -/
def writeStringToFifoName (env : Env) (len : ℕ) : Option ℕ := env.taken.map fun n => min n len

end NetworkLayer.FifoUtils
