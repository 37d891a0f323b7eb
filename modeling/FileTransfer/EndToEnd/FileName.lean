import FileTransfer.EndToEnd.UploadSize
import FileTransfer.Client.Identity

/-!
# The name of the file

The client pads the name with pipes, in bytes, and sends it in an 828 and again in
the 900 or 902 about it; the server decodes each of these fields and takes the pipes
out. What it finds is followed through the calls of one process.
-/

namespace FileTransfer.EndToEnd

open FileTransfer.Client FileTransfer.Server FileTransfer.Effect FileTransfer.History
open Program (Triple)

variable {K : Type} {pf : Platform K}

/-! ## In one request -/

/-- A path that ends in a file name which the padding does not change: it is UTF-8
text of at most 255 bytes without a pipe. -/
structure EndsIn (ti : TransferInfo) (name : Str) : Prop where
  filename_eq : filename ti.path = utf8Encode name
  length_le : (utf8Encode name).length ≤ 255
  pipe : '|' ∉ name

/-- The member is the name in the payload. -/
theorem filename_of_setEncryptionPayload {rh rh' : RequestHandler} {origSize : UInt32}
    {totalPackets : UInt16} {encryptedfile : Bytes} {packet packet' : RequestPacket}
    (h : rh.setEncryptionPayload origSize 1 totalPackets encryptedfile packet =
      .ok (rh', packet')) : rh'.filename = rh.transferInfo.getFileName := by
  rw [setEncryptionPayload_eq] at h
  generalize blitAll packet.payload _ = written at h
  cases written with
  | none => cases h
  | some payload =>
    cases h
    rfl

section Request

variable {ti : TransferInfo} {name : Str} (hname : EndsIn ti name)
include hname

theorem EndsIn.length_getFileName : ti.getFileName.length = 255 := by
  have hle := hname.length_le
  simp only [TransferInfo.getFileName, hname.filename_eq, nameSize, List.length_append,
    List.length_replicate]
  omega

/-- The padded name is the name with pipes behind it, as text. -/
theorem EndsIn.getFileName_eq : ti.getFileName =
    utf8Encode (name ++ List.replicate (255 - (utf8Encode name).length) '|') := by
  rw [← EndToEnd.getFileName_eq hname.filename_eq hname.length_le,
    List.take_of_length_le (by rw [hname.length_getFileName])]

theorem EndsIn.unpaddedName {payload : Bytes} {start stop : Nat}
    (hslice : slice payload start stop = ti.getFileName) :
    unpaddedName payload start stop = some name :=
  unpaddedName_of_padded (hslice.trans hname.getFileName_eq) hname.pipe

/-- The server reads the name out of an upload. -/
theorem EndsIn.uploadName {E : Bytes → Bytes → Bytes} {rh rh' : RequestHandler}
    {disk : Bytes → Option Bytes} {packet packet' : RequestPacket} (hti : rh.transferInfo = ti)
    (h : rh.encryptFile E disk packet = .ok (true, rh', packet')) :
    rh'.filename = ti.getFileName ∧ uploadName packet'.payload = some name := by
  have hlength := hname.length_getFileName
  simp only [RequestHandler.encryptFile] at h
  split at h
  · cases h
  split at h
  · next hopened =>
    cases h
    simp only [RequestHandler.encryptOpened, bind_eq_ok] at hopened
    obtain ⟨⟨packs, orig⟩, -, enc, -, hset⟩ := hopened
    have hpayload := (setEncryptionPayload_ok hset).2
    have hfilename := filename_of_setEncryptionPayload hset
    rw [hti] at hpayload hfilename
    refine ⟨hfilename, hname.unpaddedName ?_⟩
    rw [List.take_of_length_le hlength.le] at hpayload
    rw [hpayload, uploadHeader, List.append_assoc _ enc]
    exact slice_append (by simp) (by rw [hlength])
  · cases h
  · cases h

/-- And out of a request about the upload. -/
theorem EndsIn.finalName {code : RequestCode} {packet packet' : RequestPacket}
    (h : crcRequest code ti.getFileName packet = .ok packet') :
    finalName packet'.payload = some name := by
  have hlength := hname.length_getFileName
  simp only [crcRequest, bind_eq_ok, inBounds_eq_ok] at h
  obtain ⟨data, hdata, payload, hpayload, hpacket⟩ := h
  cases hpacket
  have hwhole : data = ti.getFileName := by
    have hroom : 0 + nameSize ≤ ti.getFileName.length := hlength.ge
    rw [peek, if_pos hroom, List.drop_zero, List.take_of_length_le hlength.le] at hdata
    exact (Option.some.inj hdata).symm
  apply hname.unpaddedName
  rw [← List.nil_append (initRequest _ _ _).payload] at hpayload
  rw [eq_of_blit_append hpayload rfl, hwhole]
  exact slice_append rfl (by rw [hlength])

end Request

/-! ## In the requests of a process -/

/-- Behind `start`, the log has an upload. -/
def UploadedAfter (start log : List Event) : Prop :=
  ∃ past packet folder rest, log = start ++ past ++ .sent packet folder :: rest ∧
    packet.code = RequestCode.sendFile.value

/-- What a request that is sent behind `start` names: an upload the file, and a request
about the outcome of an upload the same file. -/
def NamesAfter (start : List Event) (name : Str) (past : List Event) (packet : RequestPacket)
    (_ : Folder) : Prop :=
  start <+: past →
    (packet.code = RequestCode.sendFile.value → uploadName packet.payload = some name) ∧
    (packet.code = RequestCode.validCrc.value ∨ packet.code = RequestCode.exitCrc.value →
      UploadedAfter start past → finalName packet.payload = some name)

/-- The last event is the upload, or there was one before. -/
theorem UploadedAfter.of_concat {start log : List Event} {event : Event}
    (h : UploadedAfter start (log ++ [event])) :
    UploadedAfter start log ∨
      ∃ packet folder, event = .sent packet folder ∧
        packet.code = RequestCode.sendFile.value := by
  obtain ⟨past, packet, folder, rest, heq, hcode⟩ := h
  rcases List.eq_nil_or_concat rest with rfl | ⟨rest, last, rfl⟩
  · obtain ⟨-, hevent⟩ := List.append_inj' heq rfl
    exact Or.inr ⟨packet, folder, (List.cons.inj hevent).1, hcode⟩
  · rw [List.concat_eq_append, ← List.cons_append, ← List.append_assoc] at heq
    obtain ⟨hlog, -⟩ := List.append_inj' heq rfl
    exact Or.inl ⟨past, packet, folder, rest, hlog, hcode⟩

/-- What holds of a process since `start`. -/
structure NamesKept (start : List Event) (ti : TransferInfo) (name : Str) (s : Process K) :
    Prop where
  behind : start <+: s.log
  transferInfo_eq : s.members.requestHandler.transferInfo = ti
  sent : EachSent (NamesAfter start name) s.log
  filename_eq : UploadedAfter start s.log → s.members.requestHandler.filename = ti.getFileName

/-- The packet that was built may be sent. -/
structure ReadyToSend (start : List Event) (ti : TransferInfo) (name : Str) (s : Process K) :
    Prop where
  kept : NamesKept start ti name s
  names : NamesAfter start name s.log s.members.requestPacket s.folder
  filename_eq : s.members.requestPacket.code = RequestCode.sendFile.value →
    s.members.requestHandler.filename = ti.getFileName

section Process

variable {start : List Event} {ti : TransferInfo} {name : Str} {s s' : Process K}

/-- Nothing else of the process matters. -/
theorem NamesKept.of_eq (hs : NamesKept start ti name s)
    (hrh : s'.members.requestHandler.filename = s.members.requestHandler.filename)
    (hti : s'.members.requestHandler.transferInfo = s.members.requestHandler.transferInfo)
    (hlog : s'.log = s.log) : NamesKept start ti name s' := by
  refine ⟨hlog ▸ hs.behind, hti.trans hs.transferInfo_eq, hlog ▸ hs.sent, ?_⟩
  intro huploaded
  rw [hlog] at huploaded
  rw [hrh]
  exact hs.filename_eq huploaded

/-- An event that is no request. -/
theorem NamesKept.concat (hs : NamesKept start ti name s) {event : Event}
    (hevent : ∀ packet folder, event ≠ .sent packet folder)
    (hrh : s'.members.requestHandler = s.members.requestHandler)
    (hlog : s'.log = s.log ++ [event]) : NamesKept start ti name s' := by
  refine ⟨?_, by rw [hrh]; exact hs.transferInfo_eq, ?_, ?_⟩
  · rw [hlog]
    exact hs.behind.trans (List.prefix_append _ _)
  · rw [hlog]
    refine eachAfter_concat.mpr ⟨hs.sent, ?_⟩
    intro packet folder heq
    exact absurd heq (hevent packet folder)
  · intro huploaded
    rw [hlog] at huploaded
    rw [hrh]
    rcases huploaded.of_concat with hbefore | ⟨packet, folder, heq, -⟩
    · exact hs.filename_eq hbefore
    · exact absurd heq (hevent packet folder)

theorem ReadyToSend.sends (hs : ReadyToSend start ti name s) (connection : ConnectionHandler) :
    NamesKept start ti name (s.sends connection) := by
  refine ⟨hs.kept.behind.trans (List.prefix_append _ _), hs.kept.transferInfo_eq,
    eachSent_sent.mpr ⟨hs.kept.sent, hs.names⟩, ?_⟩
  intro huploaded
  rcases huploaded.of_concat with hbefore | ⟨packet, folder, heq, hcode⟩
  · exact hs.kept.filename_eq hbefore
  · cases heq
    exact hs.filename_eq hcode

end Process

section Triples

variable {start : List Event} {ti : TransferInfo} {name : Str}

/-- A request that builds its packet from the members alone. -/
theorem triple_loadRequest {request : Members K → Except Fault RequestPacket}
    (hready : ∀ s packet, NamesKept start ti name s → request s.members = .ok packet →
      NamesAfter start name s.log packet s.folder ∧
        packet.code ≠ RequestCode.sendFile.value) :
    Triple exec (NamesKept start ti name) (loadRequest request)
      (fun status s => NamesKept start ti name s ∧ (status = true → ReadyToSend start ti name s))
      fun _ => NamesKept start ti name := by
  intro s hs
  simp only [loadRequest, Program.run_bind, Cpp.run_members, Cpp.run_lift]
  cases hrequest : request s.members with
  | error e => exact hs
  | ok packet =>
    obtain ⟨hnames, hcode⟩ := hready s packet hs hrequest
    simp only [Cpp.run_assign]
    have hkept : NamesKept start ti name
        { s with members := { s.members with requestPacket := packet } } := hs.of_eq rfl rfl rfl
    exact ⟨hkept, fun _ => ⟨hkept, hnames, fun heq => absurd heq hcode⟩⟩

/-- A request that is neither an upload nor about the outcome of one. -/
theorem NamesAfter.of_code {past : List Event} {packet : RequestPacket} {folder : Folder}
    {code : RequestCode} (hcode : packet.code = code.value) (hupload : code ≠ .sendFile)
    (hvalid : code ≠ .validCrc) (hexit : code ≠ .exitCrc) :
    NamesAfter start name past packet folder := by
  intro _
  rw [hcode]
  refine ⟨fun heq => absurd (RequestCode.value_injective heq) hupload, fun heq => ?_⟩
  rcases heq with heq | heq
  · exact absurd (RequestCode.value_injective heq) hvalid
  · exact absurd (RequestCode.value_injective heq) hexit

variable (hname : EndsIn ti name)
include hname

/-- A 900, 901 or 902 names the file of the upload before it. -/
theorem EndsIn.crcRequest_ready (code : RequestCode) (hupload : code ≠ .sendFile)
    {s : Process K} {packet : RequestPacket} (hs : NamesKept start ti name s)
    (h : crcRequest code s.members.requestHandler.filename s.members.requestPacket =
      .ok packet) :
    NamesAfter start name s.log packet s.folder ∧
      packet.code ≠ RequestCode.sendFile.value := by
  have hcode := (crcRequest_ok h).1
  have hother : packet.code ≠ RequestCode.sendFile.value := by
    rw [hcode]
    exact fun heq => hupload (RequestCode.value_injective heq)
  refine ⟨fun _ => ⟨fun heq => absurd heq hother, fun _ huploaded => ?_⟩, hother⟩
  rw [hs.filename_eq huploaded] at h
  exact hname.finalName h

theorem EndsIn.triple_loadUpload (aes : Bytes → Bytes → Bytes) :
    Triple exec (NamesKept start ti name) (loadUpload aes : Cpp K Bool)
      (fun status s => NamesKept start ti name s ∧ (status = true → ReadyToSend start ti name s))
      fun _ => NamesKept start ti name := by
  intro s hs
  simp only [loadUpload, Program.run_bind, Cpp.run_members, Cpp.run_ifstream, Cpp.run_lift]
  rcases hencrypt : s.members.requestHandler.encryptFile aes
    (fun _ => s.folder.ifstream s.members.requestHandler.transferInfo.path)
    s.members.requestPacket with e | ⟨_ | _, rh, packet⟩
  · exact hs.of_eq rfl rfl rfl
  · obtain ⟨rfl, rfl⟩ := encryptFile_unbuilt hencrypt
    simp only [Cpp.run_assign]
    exact ⟨hs.of_eq rfl rfl rfl, fun h => absurd h (by decide)⟩
  · obtain ⟨hcode, -, hrh, -, -⟩ := encryptFile_built hencrypt
    obtain ⟨hfilename, hupload⟩ := hname.uploadName hs.transferInfo_eq hencrypt
    simp only [Cpp.run_assign]
    have hkept : NamesKept start ti name { s with
        members := { s.members with requestHandler := rh, requestPacket := packet }
        folder := s.folder.attempted } := by
      refine ⟨hs.behind, ?_, hs.sent, fun _ => hfilename⟩
      show rh.transferInfo = ti
      rw [hrh]
      exact hs.transferInfo_eq
    refine ⟨hkept, fun _ => ⟨hkept, ?_, fun _ => hfilename⟩⟩
    refine fun _ => ⟨fun _ => hupload, fun heq => ?_⟩
    rw [show packet.code = RequestCode.sendFile.value from hcode] at heq
    exact absurd heq (by decide)

theorem EndsIn.triple_requestSelector (aes : Bytes → Bytes → Bytes) (code : RequestCode) :
    Triple exec (NamesKept start ti name) (requestSelector aes code : Cpp K Bool)
      (fun status s => NamesKept start ti name s ∧ (status = true → ReadyToSend start ti name s))
      fun _ => NamesKept start ti name := by
  cases code with
  | register =>
    refine triple_loadRequest fun s packet hs h => ?_
    have hcode := (registreationRequest_ok h).1
    exact ⟨.of_code hcode (by decide) (by decide) (by decide), by rw [hcode]; decide⟩
  | sPublicKey =>
    refine triple_loadRequest fun s packet hs h => ?_
    have hcode := (sendPublicKey_ok h).1
    exact ⟨.of_code hcode (by decide) (by decide) (by decide), by rw [hcode]; decide⟩
  | validCrc =>
    exact triple_loadRequest fun s packet hs h =>
      hname.crcRequest_ready .validCrc (by decide) hs h
  | nValidCrc =>
    exact triple_loadRequest fun s packet hs h =>
      hname.crcRequest_ready .nValidCrc (by decide) hs h
  | exitCrc =>
    exact triple_loadRequest fun s packet hs h =>
      hname.crcRequest_ready .exitCrc (by decide) hs h
  | sendFile => exact hname.triple_loadUpload aes
  | reconnect =>
    intro s hs
    simp only [requestSelector, loadSignIn, Program.run_bind, Cpp.run_members, Cpp.run_ifstream,
      Cpp.run_lift]
    rcases hsign : clientSignIn (s.folder.ifstream meInfo) s.members.requestPacket with
      e | ⟨_ | _, packet⟩
    · exact hs.of_eq rfl rfl rfl
    · simp only [Cpp.run_assign]
      exact ⟨hs.of_eq rfl rfl rfl, fun h => absurd h (by decide)⟩
    · have hcode := (clientSignIn_built hsign).1
      simp only [Cpp.run_assign]
      have hkept : NamesKept start ti name { s with
          members := { s.members with requestPacket := packet }
          folder := s.folder.attempted } := hs.of_eq rfl rfl rfl
      have hnames : NamesAfter start name s.log packet s.folder.attempted :=
        .of_code hcode (by decide) (by decide) (by decide)
      refine ⟨hkept, fun _ => ⟨hkept, hnames, fun heq => ?_⟩⟩
      rw [show packet.code = RequestCode.reconnect.value from hcode] at heq
      exact absurd heq (by decide)

/-- **What one exchange keeps**: the names in everything that was sent. -/
theorem EndsIn.triple_sendAndRecieve (code : RequestCode) :
    Triple exec (NamesKept start ti name) (sendAndRecieve pf code)
      (fun _ => NamesKept start ti name) fun _ => NamesKept start ti name := by
  have hsend : Triple exec (ReadyToSend start ti name) Cpp.sendData
      (fun _ => NamesKept (K := K) start ti name) fun _ => NamesKept start ti name := by
    apply Program.triple_of_run_snd
    intro s hs
    rw [Cpp.run_sendData]
    exact hs.sends _
  have hreceive : Triple exec (NamesKept start ti name) Cpp.receiveData
      (fun _ => NamesKept (K := K) start ti name) fun _ => NamesKept start ti name := by
    apply Program.triple_of_run_snd
    intro s hs
    rw [Cpp.run_receiveData, Client.exec]
    split
    · exact hs.concat (fun packet folder heq => by cases heq) rfl rfl
    · exact hs.of_eq rfl rfl rfl
  have hreact : Triple exec (NamesKept start ti name) (responseSelector pf.rsa pf.longBits)
      (fun _ => NamesKept start ti name) fun _ => NamesKept start ti name := by
    apply Program.triple_of_run_snd
    intro s hs
    have hreacts := responseSelector_reacts pf s
    exact hs.of_eq hreacts.filename_eq hreacts.transferInfo_eq hreacts.log_eq
  have hthrow : ∀ (status : Bool), Triple exec (NamesKept start ti name) (throwIfNot status)
      (fun _ => NamesKept (K := K) start ti name) fun _ => NamesKept start ti name := by
    intro status
    cases status <;> exact fun s hs => hs
  refine (hname.triple_requestSelector pf.aesEncryptBlock code).bind fun status => ?_
  cases status with
  | false => exact fun s hs => hs.1
  | true =>
    have hbuilt : Triple exec
        (fun s => NamesKept start ti name s ∧ (true = true → ReadyToSend start ti name s))
        (throwIfNot true) (fun _ => ReadyToSend (K := K) start ti name)
        fun _ => NamesKept start ti name := fun s hs => hs.2 rfl
    refine hbuilt.bind fun _ => hsend.bind fun sent => (hthrow sent).bind fun _ => ?_
    split
    · exact fun s hs => hs
    · refine hreceive.bind fun received => (hthrow received).bind fun _ => ?_
      exact hreact.bind fun reacted => (hthrow reacted).bind fun _ s hs => hs

end Triples

/-! ## In the calls of a process -/

theorem namesKept_undisturbed {start : List Event} {ti : TransferInfo} {name : Str} :
    Undisturbed (NamesKept (K := K) start ti name) where
  clientID := fun _ _ hs => hs.of_eq rfl rfl rfl
  registeredClient := fun _ hs => hs.of_eq rfl rfl rfl
  returned := fun _ _ hs => hs.concat (fun packet folder heq => by cases heq) rfl rfl
  ended := fun _ hs => hs.of_eq rfl rfl rfl

/-- Before the first call nothing has been sent. -/
theorem namesKept_start (s₀ : Process K) (name : Str) :
    NamesKept s₀.log s₀.members.requestHandler.transferInfo name s₀ := by
  refine ⟨List.prefix_refl _, rfl, ?_, ?_⟩
  · intro past event rest heq packet folder _ hbehind
    have hlength := hbehind.length_le
    rw [heq, List.length_append, List.length_cons] at hlength
    omega
  · intro huploaded
    obtain ⟨past, packet, folder, rest, heq, -⟩ := huploaded
    have hlength := congrArg List.length heq
    rw [List.length_append, List.length_append, List.length_cons] at hlength
    omega

/-- What the calls of a process keep. -/
theorem EndsIn.namesKept {s₀ s : Process K} {es : List (Step K)} {name : Str}
    (hname : EndsIn s₀.members.requestHandler.transferInfo name) (h : Life pf s₀ es s)
    (hcalls : ∀ e ∈ es, ∃ operation, e.action = .call operation) :
    NamesKept s₀.log s₀.members.requestHandler.transferInfo name s := by
  induction h with
  | start => exact namesKept_start s₀ name
  | @event es e _ he ih =>
    have hbefore := ih fun e' he' => hcalls e' (List.mem_append_left _ he')
    obtain ⟨operation, haction⟩ := hcalls e (by simp)
    rw [he.2, haction]
    exact namesKept_undisturbed.call (fun code => hname.triple_sendAndRecieve code) operation
      hbefore

/-- An upload that a process sent is behind its start. -/
theorem uploadedAfter_take {start log : List Event} (hbehind : start <+: log) {i j : Nat}
    {packet : RequestPacket} {folder : Folder} (hi : log[i]? = some (.sent packet folder))
    (hstart : start.length ≤ i) (hij : i < j)
    (hcode : packet.code = RequestCode.sendFile.value) : UploadedAfter start (log.take j) := by
  have hi' : (log.take j)[i]? = some (.sent packet folder) := by
    rw [List.getElem?_take_of_lt hij]
    exact hi
  have hpast : start <+: (log.take j).take i := by
    rw [List.take_take, Nat.min_eq_left hij.le]
    exact List.prefix_take_iff.mpr ⟨hbehind, hstart⟩
  obtain ⟨past, hpast⟩ := hpast
  exact ⟨past, packet, folder, (log.take j).drop (i + 1), by
    rw [hpast]
    exact eq_of_getElem? hi', hcode⟩

/-- **File names survive padding.** Where a process that is configured with such a path
sends an 828 and, later, a 900 or 902, the server reads that file name out of both. -/
theorem file_name_survives {s₀ s : Process K} {es : List (Step K)} {name : Str}
    (hname : EndsIn s₀.members.requestHandler.transferInfo name) (h : Life pf s₀ es s)
    (hcalls : ∀ e ∈ es, ∃ operation, e.action = .call operation) {i j : Nat}
    {upload outcome : RequestPacket} {folder folder' : Folder}
    (hi : s.log[i]? = some (.sent upload folder))
    (hj : s.log[j]? = some (.sent outcome folder')) (hstart : s₀.log.length ≤ i) (hij : i < j)
    (hupload : upload.code = RequestCode.sendFile.value)
    (houtcome : outcome.code = RequestCode.validCrc.value ∨
      outcome.code = RequestCode.exitCrc.value) :
    uploadName upload.payload = some name ∧ finalName outcome.payload = some name := by
  have hkept := hname.namesKept h hcalls
  have hpast : ∀ k, s₀.log.length ≤ k → s₀.log <+: s.log.take k := fun k hk =>
    List.prefix_take_iff.mpr ⟨hkept.behind, hk⟩
  constructor
  · exact (hkept.sent.of_getElem? hi upload folder rfl (hpast i hstart)).1 hupload
  · have hlate : s₀.log.length ≤ j := hstart.trans hij.le
    exact (hkept.sent.of_getElem? hj outcome folder' rfl (hpast j hlate)).2 houtcome
      (uploadedAfter_take hkept.behind hi hstart hij hupload)

/-- A client in an empty folder, about to be registered, to send `f` and to confirm it. -/
def firstClient : Process Bytes :=
  Action.perform toyPlatform (.start [1] ⟨[0x66]⟩ [0x75] uninitialized
    ⟨responseFrame .regSuccessful (List.replicate 16 9) ++ toyKeyFrame .inPublicOutCrypted [1] ++
      matchingFrame ++ responseFrame .msgRecieved [], [], 100000, false⟩)
    (beforeMain fun _ => none)

/-- A request of the given code. -/
def isRequest (code : RequestCode) : Event → Bool
  | .sent packet _ => packet.code == code.value
  | _ => false

theorem of_isRequest {code : RequestCode} {entry : Option Event}
    (h : entry.any (isRequest code)) :
    ∃ packet folder, entry = some (.sent packet folder) ∧ packet.code = code.value := by
  obtain ⟨event, rfl, hevent⟩ := (Option.any_eq_true ..).mp h
  cases event with
  | sent packet folder => exact ⟨packet, folder, rfl, beq_iff_eq.mp hevent⟩
  | started userName folder => cases hevent
  | received packet folder => cases hevent
  | returned value => cases hevent

theorem firstClient_file_name_survives :
    ∃ s upload outcome folder folder',
      follow toyPlatform [.call .registerNewClient, .call .uploadFile] firstClient = some s ∧
      s.log[6]? = some (.sent upload folder) ∧ s.log[8]? = some (.sent outcome folder') ∧
      uploadName upload.payload = some ['f'] ∧ finalName outcome.payload = some ['f'] := by
  have hrun : (follow toyPlatform [.call .registerNewClient, .call .uploadFile] firstClient).any
      (fun s => s.log[6]?.any (isRequest .sendFile) ∧ s.log[8]?.any (isRequest .validCrc)) := by
    decide +kernel
  obtain ⟨s, hs, hlog⟩ := (Option.any_eq_true ..).mp hrun
  obtain ⟨hsixth, heighth⟩ := of_decide_eq_true hlog
  obtain ⟨upload, folder, hi, hupload⟩ := of_isRequest hsixth
  obtain ⟨outcome, folder', hj, houtcome⟩ := of_isRequest heighth
  have hstart : Life toyPlatform firstClient [] firstClient := .start
  obtain ⟨es, hlife, hactions⟩ := life_follow_actions hstart hs
  have hcalls : ∀ e ∈ [] ++ es, ∃ operation, e.action = .call operation := by
    intro e he
    have hmem : e.action ∈ es.map Step.action := List.mem_map_of_mem he
    rw [hactions] at hmem
    simp only [List.mem_cons, List.not_mem_nil, or_false] at hmem
    rcases hmem with haction | haction
    · exact ⟨_, haction⟩
    · exact ⟨_, haction⟩
  have hname : EndsIn firstClient.members.requestHandler.transferInfo ['f'] :=
    ⟨by decide +kernel, by decide, by decide⟩
  exact ⟨s, upload, outcome, folder, folder', hs, hi, hj,
    file_name_survives hname hlife hcalls hi hj (by decide) (by decide) hupload (Or.inl houtcome)⟩

end FileTransfer.EndToEnd
