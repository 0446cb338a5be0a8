import OrssNic.OpenflowCursor
import OrssNic.BigEndian

/-!
# What the features reply says

The body of a `FEATURES_REPLY` is the features structure and a sequence of port
records. The parser counts the records in an `uint8_t`, while the 16-bit length
of a message leaves room for more of them.
-/

namespace OrssNic
open CLoops

def decodeFeatures (body : List UInt8) : OpenflowFeatures where
  datapathId := getBe64 body 0
  nBuffers := getBe32 body 8
  nTables := loadU8 body 12
  capabilities := getBe32 body 16
  actions := getBe32 body 20

def decodePort (record : List UInt8) : OpenflowPortData where
  portNo := getBe16 record 0
  hwAddr := loadOctets6 record 2
  name := (record.drop 8).take OFP_MAX_PORT_NAME_LEN
  config := getBe32 record 24
  state := getBe32 record 28
  curr := getBe32 record 32
  advertised := getBe32 record 36
  supported := getBe32 record 40
  peer := getBe32 record 44

def portRecord (body : List UInt8) (i : ℕ) : List UInt8 :=
  (body.drop (FEATURES_SIZE + i * PORT_DATA_SIZE)).take PORT_DATA_SIZE

def portRecords (body : List UInt8) : ℕ := (body.length - FEATURES_SIZE) / PORT_DATA_SIZE

structure SwitchFeatures.Decodes (r : SwitchFeatures) (body : List UInt8) : Prop where
  features : r.features = decodeFeatures body
  nbPorts : r.nbPorts.toNat = portRecords body
  ports : ∀ i < portRecords body,
    r.ports.bind (fun ports => ports[i]?) = some (decodePort (portRecord body i))

/-! ## The fields -/

theorem getBe_take {body : List UInt8} {offset k n : ℕ} (h : offset + k ≤ n) :
    ((body.take n).drop offset).take k = (body.drop offset).take k := by
  rw [List.drop_take, List.take_take, Nat.min_eq_left (by omega)]

theorem parsePortStep_ok {data : List UInt8} {i : ℕ} {ports : List OpenflowPortData}
    (hdata : FEATURES_SIZE + i * PORT_DATA_SIZE + PORT_DATA_SIZE ≤ data.length)
    (hi : i < ports.length) :
    parsePortStep data i ports = .ok (ports.set i (decodePort (portRecord data i))) := by
  have hlength : (portRecord data i).length = 48 := by
    rw [portRecord, slice_length hdata, PORT_DATA_SIZE]
  have hload : loadBytes data (FEATURES_SIZE + i * PORT_DATA_SIZE) PORT_DATA_SIZE =
      .ok (portRecord data i) := by
    rw [loadBytes, if_pos hdata, portRecord]
  simp only [parsePortStep, hload, bind, Except.bind, loadPortData]
  rw [ntohs_loadU16_getBe16 (by omega), ntohl_loadU32_getBe32 (by omega),
    ntohl_loadU32_getBe32 (by omega), ntohl_loadU32_getBe32 (by omega),
    ntohl_loadU32_getBe32 (by omega), ntohl_loadU32_getBe32 (by omega),
    ntohl_loadU32_getBe32 (by omega), writeAt_of_lt hi, decodePort]

theorem loadFeatures_ntoh {data : List UInt8} (h : FEATURES_SIZE ≤ data.length) :
    let switchFeatures := loadFeatures (data.take FEATURES_SIZE)
    { switchFeatures with
      datapathId := ntohll switchFeatures.datapathId
      nBuffers := ntohl switchFeatures.nBuffers
      capabilities := ntohl switchFeatures.capabilities
      actions := ntohl switchFeatures.actions } = decodeFeatures data := by
  have hlength : (data.take FEATURES_SIZE).length = 24 := by
    rw [List.length_take, Nat.min_eq_left h, FEATURES_SIZE]
  have htables : loadU8 (data.take FEATURES_SIZE) 12 = loadU8 data 12 := by
    rw [loadU8, loadU8, List.getD_eq_getElem?_getD, List.getD_eq_getElem?_getD,
      List.getElem?_take, if_pos (by decide)]
  simp only [loadFeatures, decodeFeatures, htables]
  rw [ntohll_loadU64_getBe64 (by omega), ntohl_loadU32_getBe32 (by omega),
    ntohl_loadU32_getBe32 (by omega), ntohl_loadU32_getBe32 (by omega)]
  simp only [getBe64, getBe32]
  rw [getBe_take (by decide), getBe_take (by decide), getBe_take (by decide),
    getBe_take (by decide)]

/-! ## The count of the ports -/

/-- A message with room for the features, and a body of the announced length. -/
structure FeaturesMessage (msg : OpenflowMessage) (data : List UInt8) : Prop where
  received : msg.data = some data
  room : OFP_HEADER_LEN + FEATURES_SIZE ≤ msg.header.length.toNat
  whole : data.length = msg.header.length.toNat - OFP_HEADER_LEN

section Reply
variable {msg : OpenflowMessage} {data : List UInt8}

theorem FeaturesMessage.nbPorts_eq (h : FeaturesMessage msg data) :
    (ReceivedBody.nbPorts msg.header.length).toNat = portRecords data % 2 ^ 8 := by
  have hroom := h.room
  have hlt := msg.header.length.toNat_lt
  rw [OFP_HEADER_LEN, FEATURES_SIZE] at hroom
  have hrest : (msg.header.length.toUInt64 - UInt64.ofNat OFP_HEADER_LEN -
      UInt64.ofNat FEATURES_SIZE).toNat = msg.header.length.toNat - 32 := by
    simp only [OFP_HEADER_LEN, FEATURES_SIZE, UInt64.toNat_sub, UInt16.toNat_toUInt64,
      UInt64.toNat_ofNat']
    omega
  have hsize : data.length - FEATURES_SIZE = msg.header.length.toNat - 32 := by
    rw [h.whole, FEATURES_SIZE, OFP_HEADER_LEN]
    omega
  rw [portRecords, hsize, ReceivedBody.nbPorts]
  split_ifs with hpos
  · rw [UInt64.toNat_toUInt8, UInt64.toNat_div, hrest]
    rfl
  · rw [UInt64.lt_iff_toNat_lt, hrest, UInt64.toNat_zero] at hpos
    have hzero : msg.header.length.toNat - 32 = 0 := by omega
    rw [hzero, Nat.zero_div]
    rfl

theorem portRecord_within {i : ℕ} (hi : i < portRecords data) :
    FEATURES_SIZE + i * PORT_DATA_SIZE + PORT_DATA_SIZE ≤ data.length := by
  rw [portRecords, PORT_DATA_SIZE] at hi
  rw [PORT_DATA_SIZE]
  omega

theorem portsLoop_eq {n : ℕ} (hn : n ≤ portRecords data) :
    forLoop (parsePortStep data) n (List.replicate n default) =
      .ok ((List.range n).map fun i => decodePort (portRecord data i)) := by
  obtain ⟨ports, hports⟩ : ∃ ports : List OpenflowPortData, ports = List.replicate n default :=
    ⟨_, rfl⟩
  have hsize : ports.length = n := by
    rw [hports, List.length_replicate]
  rw [← hports, ← hsize]
  apply forLoop_fill
  intro i ports' hi hlength
  rw [hsize] at hi
  exact parsePortStep_ok (portRecord_within (hi.trans_le hn)) (by omega)

theorem FeaturesMessage.parse (h : FeaturesMessage msg data) :
    ∃ r, parseFeaturesReply msg = .ok r ∧ r.features = decodeFeatures data ∧
      r.nbPorts = ReceivedBody.nbPorts msg.header.length ∧
      ∀ i < r.nbPorts.toNat,
        r.ports.bind (fun ports => ports[i]?) = some (decodePort (portRecord data i)) := by
  have hfixed : FEATURES_SIZE ≤ data.length := by
    have hroom := h.room
    rw [h.whole]
    omega
  have hdata : messageData msg = .ok data := by
    rw [messageData, h.received]
  have hload : loadBytes data 0 FEATURES_SIZE = .ok (data.take FEATURES_SIZE) := by
    rw [loadBytes, if_pos (by omega), List.drop_zero]
  have hports := h.nbPorts_eq
  rw [parseFeaturesReply, hdata]
  simp only [bind, Except.bind, hload, loadFeatures_ntoh hfixed]
  rw [ReceivedBody.nbPorts] at hports ⊢
  split_ifs at hports ⊢ with hpos
  · generalize (_ / UInt64.ofNat PORT_DATA_SIZE).toUInt8 = nbPorts at hports ⊢
    have hle : nbPorts.toNat ≤ portRecords data := by
      rw [hports]
      exact Nat.mod_le _ _
    rw [portsLoop_eq hle]
    refine ⟨_, rfl, rfl, rfl, ?_⟩
    intro i hi
    simp only [Option.bind_some, List.getElem?_map, List.getElem?_range hi, Option.map_some]
  · refine ⟨_, rfl, rfl, rfl, ?_⟩
    intro i hi
    exact absurd hi (Nat.not_lt_zero _)

end Reply

/-- The reply is decoded as its bytes mean it exactly when its port records can
be counted in 8 bits. -/
theorem parseFeaturesReply_decodes_iff (msg : OpenflowMessage) (data : List UInt8)
    (h : FeaturesMessage msg data) :
    (∃ r, parseFeaturesReply msg = .ok r ∧ r.Decodes data) ↔ portRecords data < 2 ^ 8 := by
  obtain ⟨r, hparse, hfeatures, hnb, hports⟩ := h.parse
  have hcount := h.nbPorts_eq
  constructor
  · rintro ⟨r', hparse', hdecodes⟩
    rw [hparse] at hparse'
    cases hparse'
    rw [← hdecodes.nbPorts]
    exact r.nbPorts.toNat_lt
  · intro hlt
    rw [Nat.mod_eq_of_lt hlt, ← hnb] at hcount
    refine ⟨r, hparse, hfeatures, hcount, ?_⟩
    intro i hi
    exact hports i (hcount ▸ hi)

def portsBody (n : ℕ) : List UInt8 := List.replicate (FEATURES_SIZE + n * PORT_DATA_SIZE) 1

def portsMessage (n : ℕ) : OpenflowMessage where
  header := ⟨OFP_VERSION, OFP_FEATURES_REPLY,
    UInt16.ofNat (OFP_HEADER_LEN + FEATURES_SIZE + n * PORT_DATA_SIZE), 0⟩
  data := some (portsBody n)

theorem portsMessage_features {n : ℕ}
    (h : OFP_HEADER_LEN + FEATURES_SIZE + n * PORT_DATA_SIZE < 2 ^ 16) :
    FeaturesMessage (portsMessage n) (portsBody n) ∧ portRecords (portsBody n) = n := by
  have hlength : (portsMessage n).header.length.toNat =
      OFP_HEADER_LEN + FEATURES_SIZE + n * PORT_DATA_SIZE := by
    rw [portsMessage, UInt16.toNat_ofNat', Nat.mod_eq_of_lt h]
  refine ⟨⟨rfl, ?_, ?_⟩, ?_⟩
  · rw [hlength]
    exact Nat.le_add_right _ _
  · rw [hlength, portsBody, List.length_replicate]
    omega
  · rw [portRecords, portsBody, List.length_replicate, Nat.add_sub_cancel_left,
      Nat.mul_div_cancel _ (by decide)]

theorem parseFeaturesReply_decodes_iff_ports :
    ∃ r, parseFeaturesReply (portsMessage 255) = .ok r ∧ r.Decodes (portsBody 255) := by
  obtain ⟨hmessage, hrecords⟩ := portsMessage_features (n := 255) (by decide)
  exact (parseFeaturesReply_decodes_iff (portsMessage 255) (portsBody 255) hmessage).mpr
    (by rw [hrecords]; decide)

/-- With one port more the count wraps to zero. -/
theorem parseFeaturesReply_256_ports :
    FeaturesMessage (portsMessage 256) (portsBody 256) ∧ portRecords (portsBody 256) = 256 ∧
      ∃ r, parseFeaturesReply (portsMessage 256) = .ok r ∧ r.nbPorts = 0 := by
  obtain ⟨hmessage, hrecords⟩ := portsMessage_features (n := 256) (by decide)
  obtain ⟨r, hparse, -, hnb, -⟩ := hmessage.parse
  have hcount := hmessage.nbPorts_eq
  rw [hrecords, ← hnb] at hcount
  exact ⟨hmessage, hrecords, r, hparse, UInt8.toNat_inj.mp hcount⟩

end OrssNic
