import OrssNic.OpenflowFlows

/-!
# The handshake (`openflow_create_connection`)

The wait for the switch's `HELLO`, the answer to it, the request for the
features, and the parser of the reply. What the parser stores in the connection
is a record of its own here: the main loop does not look at it. `get_socket` is
the environment that provides `fd`.
-/

namespace OrssNic
open CLoops

structure OpenflowFeatures where
  datapathId : UInt64
  nBuffers : UInt32
  nTables : UInt8
  capabilities : UInt32
  actions : UInt32
  deriving DecidableEq, Repr, Inhabited

/-- `sizeof(openflow_features)` -/
def FEATURES_SIZE : ℕ := 24

def loadFeatures (bytes : List UInt8) : OpenflowFeatures where
  datapathId := loadU64 bytes 0
  nBuffers := loadU32 bytes 8
  nTables := loadU8 bytes 12
  capabilities := loadU32 bytes 16
  actions := loadU32 bytes 20

structure OpenflowPortData where
  portNo : UInt16
  hwAddr : Octets6
  name : List UInt8
  config : UInt32
  state : UInt32
  curr : UInt32
  advertised : UInt32
  supported : UInt32
  peer : UInt32
  deriving DecidableEq, Repr, Inhabited

/-- `sizeof(openflow_port_data)` -/
def PORT_DATA_SIZE : ℕ := 48

def loadPortData (bytes : List UInt8) : OpenflowPortData where
  portNo := loadU16 bytes 0
  hwAddr := loadOctets6 bytes 2
  name := (bytes.drop 8).take OFP_MAX_PORT_NAME_LEN
  config := loadU32 bytes 24
  state := loadU32 bytes 28
  curr := loadU32 bytes 32
  advertised := loadU32 bytes 36
  supported := loadU32 bytes 40
  peer := loadU32 bytes 44

/-- `ports` is `none` when no block was allocated. -/
structure SwitchFeatures where
  features : OpenflowFeatures
  nbPorts : UInt8
  ports : Option (List OpenflowPortData)

def parsePortStep (data : List UInt8) (i : ℕ) (ports : List OpenflowPortData) :
    Except Halt (List OpenflowPortData) := do
  let bytes ← loadBytes data (FEATURES_SIZE + i * PORT_DATA_SIZE) PORT_DATA_SIZE
  let port := loadPortData bytes
  writeAt .outOfBounds ports i { port with
    portNo := ntohs port.portNo
    config := ntohl port.config
    state := ntohl port.state
    curr := ntohl port.curr
    advertised := ntohl port.advertised
    supported := ntohl port.supported
    peer := ntohl port.peer }

/-- The rest of the length is a `size_t`, which wraps for a short message. -/
def parseFeaturesReply (msg : OpenflowMessage) : Except Halt SwitchFeatures := do
  let data ← messageData msg
  let bytes ← loadBytes data 0 FEATURES_SIZE
  let switchFeatures := loadFeatures bytes
  let features := { switchFeatures with
    datapathId := ntohll switchFeatures.datapathId
    nBuffers := ntohl switchFeatures.nBuffers
    capabilities := ntohl switchFeatures.capabilities
    actions := ntohl switchFeatures.actions }
  let rest : UInt64 :=
    msg.header.length.toUInt64 - UInt64.ofNat OFP_HEADER_LEN - UInt64.ofNat FEATURES_SIZE
  if 0 < rest then
    let nbPorts := (rest / UInt64.ofNat PORT_DATA_SIZE).toUInt8
    let ports ← forLoop (parsePortStep data) nbPorts.toNat (List.replicate nbPorts.toNat default)
    return ⟨features, nbPorts, some ports⟩
  return ⟨features, 0, none⟩

def helloRequest (transactionId : UInt32) : OpenflowRequest :=
  .hello ⟨OFP_VERSION, OFP_HELLO, htons (UInt16.ofNat OFP_HEADER_LEN), htonl transactionId⟩

def sendOpenflowHello (fd : Socket) (transactionId : UInt32) : Socket × UInt32 :=
  ((write fd (helloRequest transactionId)).2, transactionId + 1)

def featuresRequest (transactionId : UInt32) : OpenflowRequest :=
  .featuresRequest
    ⟨OFP_VERSION, OFP_FEATURES_REQUEST, htons (UInt16.ofNat OFP_HEADER_LEN), htonl transactionId⟩

/-- The `xid` of the request comes first. -/
def sendOpenflowFeaturesRequest (fd : Socket) (transactionId : UInt32) :
    UInt32 × Socket × UInt32 :=
  let fd := (write fd (featuresRequest transactionId)).2
  let transactionId := transactionId + 1
  (transactionId - 1, fd, transactionId)

structure Handshake where
  connection : OpenflowConnection
  transactionId : UInt32
  features : SwitchFeatures

/-- `transactionId` is what `rand` returns, and `message` the uninitialised local. -/
def openflowCreateConnection (connection : OpenflowConnection) (transactionId : UInt32)
    (message : OpenflowMessage) : Except Halt Handshake := do
  let (connection, message) ← openflowWaitForMessage connection OFP_HELLO message 0
  let (fd, transactionId) := sendOpenflowHello connection.fd transactionId
  let (featuresXid, fd, transactionId) := sendOpenflowFeaturesRequest fd transactionId
  let (connection, message) ←
    openflowWaitForMessage { connection with fd := fd } OFP_FEATURES_REPLY message featuresXid
  let features ← parseFeaturesReply message
  return ⟨connection, transactionId, features⟩

end OrssNic
