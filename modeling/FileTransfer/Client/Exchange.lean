import FileTransfer.Client.Client

/-!
# One exchange with the server

What `sendAndRecieve` can do, said once: how the request packet is built, how the
response is reacted to, and `Exchange`, which puts them together. Everything
about the operations of the client is derived from these.
-/

namespace FileTransfer.Client

open FileTransfer.Effect FileTransfer.Server

variable {K : Type}

/-! ## Building a request -/

/-- The client ID that the client decodes from the UUID line of `me.info`. -/
def Folder.clientID (folder : Folder) : Option Uid :=
  match getUUIDandUserName (folder.file meInfo) with
  | .error _ => none
  | .ok (_, uid) =>
    match uuidToBinary uid with
    | .error _ => none
    | .ok uuid => uidOf uuid

/-- What the fields of a built packet are due to. -/
structure Built (code : RequestCode) (s : Process K) (filename : Bytes)
    (packet : RequestPacket) : Prop where
  code_eq : packet.code = code.value
  clientID : match code with
    | .register => packet.clientID = ignore
    | .reconnect => s.folder.clientID = some packet.clientID
    | _ => packet.clientID = s.members.requestPacket.clientID
  publicKey : code = .sPublicKey →
    packet.payload = s.members.userName ++ [0] ++ s.members.publicKey
  upload : code = .sendFile →
    nameSize ≤ filename.length ∧
      (s.folder.file s.members.requestHandler.transferInfo.path).isSome

/-- The process with another request packet and file name in it. -/
def Process.load (s : Process K) (filename : Bytes) (packet : RequestPacket)
    (opens : Nat → Bool) : Process K :=
  { s with
    members := { s.members with
      requestHandler := { s.members.requestHandler with filename := filename }
      requestPacket := packet }
    folder := { s.folder with opens := opens } }

/-- What `requestSelector` does: it builds the packet, or leaves it alone. -/
inductive Loads (code : RequestCode) (s : Process K) : Except Fault Bool → Process K → Prop where
  | built {filename : Bytes} {packet : RequestPacket} {opens : Nat → Bool} :
      Built code s filename packet → Loads code s (.ok true) (s.load filename packet opens)
  | unbuilt {r : Except Fault Bool} {opens : Nat → Bool} : r ≠ .ok true →
      Loads code s r { s with folder := { s.folder with opens := opens } }

theorem registreationRequest_ok {userName : Bytes} {packet packet' : RequestPacket}
    (h : registreationRequest userName packet = .ok packet') :
    packet'.code = RequestCode.register.value ∧ packet'.clientID = ignore := by
  simp only [registreationRequest, bind_eq_ok] at h
  obtain ⟨payload, -, hpacket⟩ := h
  cases hpacket
  exact ⟨rfl, rfl⟩

theorem crcRequest_ok {code : RequestCode} {filename : Bytes} {packet packet' : RequestPacket}
    (h : crcRequest code filename packet = .ok packet') :
    packet'.code = code.value ∧ packet'.clientID = packet.clientID := by
  simp only [crcRequest, bind_eq_ok] at h
  obtain ⟨name, -, payload, -, hpacket⟩ := h
  cases hpacket
  exact ⟨rfl, rfl⟩

/-- The file name of an upload is long enough for the requests about it. -/
theorem crcRequest_succeeds (code : RequestCode) {filename : Bytes} (packet : RequestPacket)
    (h : nameSize ≤ filename.length) :
    ∃ packet', crcRequest code filename packet = .ok packet' := by
  have hpeek : peek filename 0 nameSize = some ((filename.drop 0).take nameSize) := by
    rw [peek, if_pos (by omega)]
  have hlen : (initRequest packet code (UInt32.ofNat nameSize)).payload.length = nameSize :=
    List.length_replicate
  have hname : ((filename.drop 0).take nameSize).length ≤ nameSize := List.length_take_le _ _
  obtain ⟨payload, hblit⟩ : ∃ payload,
      blit (initRequest packet code (UInt32.ofNat nameSize)).payload 0
        ((filename.drop 0).take nameSize) = some payload := ⟨_, if_pos (by omega)⟩
  exact ⟨_, bind_eq_ok.mpr ⟨_, inBounds_eq_ok.mpr hpeek,
    bind_eq_ok.mpr ⟨_, inBounds_eq_ok.mpr hblit, rfl⟩⟩⟩

theorem sendPublicKey_ok {userName publicKey : Bytes} {packet packet' : RequestPacket}
    (h : sendPublicKey userName publicKey packet = .ok packet') :
    packet'.code = RequestCode.sPublicKey.value ∧ packet'.clientID = packet.clientID ∧
      packet'.payload = userName ++ [0] ++ publicKey := by
  simp only [sendPublicKey, bind_eq_ok, inBounds_eq_ok] at h
  obtain ⟨named, hnamed, payload, hpayload, hpacket⟩ := h
  cases hpacket
  refine ⟨rfl, rfl, ?_⟩
  simp only [initRequest] at hnamed
  -- the buffer is never longer than what goes into it, so nothing of it is left
  have hsize : (UInt32.ofNat (userName.length + publicKey.length + 1)).toNat ≤
      userName.length + publicKey.length + 1 := by
    rw [UInt32.toNat_ofNat']
    exact Nat.mod_le _ _
  generalize (UInt32.ofNat (userName.length + publicKey.length + 1)).toNat = n at hnamed hsize
  rw [← List.nil_append (List.replicate n 0)] at hnamed
  obtain rfl := eq_of_blit_append hnamed rfl
  have hout := eq_of_blit_append hpayload (by simp)
  rw [hout, List.drop_eq_nil_of_le, List.append_nil]
  · rfl
  · simp only [List.length_drop, List.length_replicate, List.length_append, List.length_singleton]
    omega

theorem encryptFile_built {aes : Bytes → Bytes → Bytes} {rh rh' : RequestHandler}
    {disk : Bytes → Option Bytes} {packet packet' : RequestPacket}
    (h : rh.encryptFile aes disk packet = .ok (true, rh', packet')) :
    packet'.code = RequestCode.sendFile.value ∧ packet'.clientID = packet.clientID ∧
      rh' = { rh with filename := rh'.filename } ∧ nameSize ≤ rh'.filename.length ∧
      (disk rh.transferInfo.path).isSome := by
  simp only [RequestHandler.encryptFile] at h
  split at h
  · cases h
  · next file hfile =>
    split at h
    · next hopened =>
      cases h
      simp only [RequestHandler.encryptOpened, RequestHandler.setEncryptionPayload, bind_eq_ok,
        inBounds_eq_ok] at hopened
      obtain ⟨⟨packs, orig⟩, -, enc, -, p₁, -, p₂, -, p₃, -, p₄, -, name, hname, p₅, -, p₆, -,
        hpacket⟩ := hopened
      cases hpacket
      refine ⟨rfl, rfl, rfl, ?_, by rw [hfile]; rfl⟩
      simp only [peek] at hname
      split at hname
      · omega
      · cases hname
    · cases h
    · cases h

theorem encryptFile_unbuilt {aes : Bytes → Bytes → Bytes} {rh rh' : RequestHandler}
    {disk : Bytes → Option Bytes} {packet packet' : RequestPacket}
    (h : rh.encryptFile aes disk packet = .ok (false, rh', packet')) :
    rh' = rh ∧ packet' = packet := by
  simp only [RequestHandler.encryptFile] at h
  split at h
  · cases h
    exact ⟨rfl, rfl⟩
  · split at h
    · cases h
    · cases h
      exact ⟨rfl, rfl⟩
    · cases h

theorem clientSignIn_built {folder : Folder} {packet packet' : RequestPacket}
    (h : clientSignIn (folder.ifstream meInfo) packet = .ok (true, packet')) :
    packet'.code = RequestCode.reconnect.value ∧ folder.clientID = some packet'.clientID := by
  simp only [clientSignIn] at h
  split at h
  · next hbody =>
    cases h
    simp only [signInRequest, bind_eq_ok, inBounds_eq_ok] at hbody
    obtain ⟨⟨username, uid⟩, hinfo, uuid, huuid, clientID, hid, payload, -, hpacket⟩ := hbody
    cases hpacket
    refine ⟨rfl, ?_⟩
    have hopened : folder.ifstream meInfo = folder.file meInfo := by
      simp only [Folder.ifstream] at hinfo ⊢
      split at hinfo
      · next hopens => rw [if_pos hopens]
      · cases hinfo
    rw [hopened] at hinfo
    simp only [Folder.clientID, hinfo, huuid]
    exact hid
  · cases h
  · cases h

theorem clientSignIn_unbuilt {me : Option Bytes} {packet packet' : RequestPacket}
    (h : clientSignIn me packet = .ok (false, packet')) : packet' = packet := by
  simp only [clientSignIn] at h
  split at h
  · cases h
  · cases h
    rfl
  · cases h

theorem loadRequest_loads {code : RequestCode} {s : Process K}
    {request : Members K → Except Fault RequestPacket}
    (hbuilt : ∀ packet, request s.members = .ok packet →
      Built code s s.members.requestHandler.filename packet) :
    Loads code s (Program.run exec (loadRequest request) s).1
      (Program.run exec (loadRequest request) s).2 := by
  simp only [loadRequest, Program.run_bind, Cpp.run_members, Cpp.run_lift]
  cases hrequest : request s.members with
  | error e => exact @Loads.unbuilt _ _ _ _ s.folder.opens nofun
  | ok packet =>
    simp only [Cpp.run_assign]
    exact .built (hbuilt packet hrequest)

/-- A request of its own payload keeps the client ID and nothing more is known of it. -/
theorem Built.of_crcRequest {code : RequestCode} {s : Process K} {packet : RequestPacket}
    (h : crcRequest code s.members.requestHandler.filename s.members.requestPacket = .ok packet)
    (hcode : code = .validCrc ∨ code = .nValidCrc ∨ code = .exitCrc) :
    Built code s s.members.requestHandler.filename packet := by
  obtain ⟨hvalue, hid⟩ := crcRequest_ok h
  rcases hcode with rfl | rfl | rfl <;> exact ⟨hvalue, hid, nofun, nofun⟩

/-- **What `requestSelector` does**, for every code. -/
theorem requestSelector_loads (aes : Bytes → Bytes → Bytes) (code : RequestCode)
    (s : Process K) :
    Loads code s (Program.run exec (requestSelector aes code) s).1
      (Program.run exec (requestSelector aes code) s).2 := by
  cases code with
  | register =>
    refine loadRequest_loads fun packet h => ?_
    obtain ⟨hvalue, hid⟩ := registreationRequest_ok h
    exact ⟨hvalue, hid, nofun, nofun⟩
  | sPublicKey =>
    refine loadRequest_loads fun packet h => ?_
    obtain ⟨hvalue, hid, hpayload⟩ := sendPublicKey_ok h
    exact ⟨hvalue, hid, fun _ => hpayload, nofun⟩
  | validCrc => exact loadRequest_loads fun packet h => .of_crcRequest h (by simp)
  | nValidCrc => exact loadRequest_loads fun packet h => .of_crcRequest h (by simp)
  | exitCrc => exact loadRequest_loads fun packet h => .of_crcRequest h (by simp)
  | reconnect =>
    simp only [requestSelector, loadSignIn, Program.run_bind, Cpp.run_members, Cpp.run_ifstream,
      Cpp.run_lift]
    rcases hsign : clientSignIn (s.folder.ifstream meInfo) s.members.requestPacket with
      e | ⟨_ | _, packet⟩
    · exact .unbuilt nofun
    · obtain rfl := clientSignIn_unbuilt hsign
      simp only [Cpp.run_assign]
      exact .unbuilt nofun
    · obtain ⟨hvalue, hid⟩ := clientSignIn_built hsign
      simp only [Cpp.run_assign]
      exact .built ⟨hvalue, hid, nofun, nofun⟩
  | sendFile =>
    simp only [requestSelector, loadUpload, Program.run_bind, Cpp.run_members, Cpp.run_ifstream,
      Cpp.run_lift]
    rcases hencrypt : s.members.requestHandler.encryptFile aes
      (fun _ => s.folder.ifstream s.members.requestHandler.transferInfo.path)
      s.members.requestPacket with e | ⟨_ | _, rh, packet⟩
    · exact .unbuilt nofun
    · obtain ⟨rfl, rfl⟩ := encryptFile_unbuilt hencrypt
      simp only [Cpp.run_assign]
      exact .unbuilt nofun
    · obtain ⟨hvalue, hid, hrh, hname, hfile⟩ := encryptFile_built hencrypt
      simp only [Cpp.run_assign]
      have hthere : (s.folder.file s.members.requestHandler.transferInfo.path).isSome := by
        simp only [Folder.ifstream] at hfile
        split at hfile
        · exact hfile
        · cases hfile
      have hloads : Loads .sendFile s (.ok true)
          (s.load rh.filename packet s.folder.attempted.opens) :=
        .built ⟨hvalue, hid, nofun, fun _ => ⟨hname, hthere⟩⟩
      rw [Process.load, ← hrh] at hloads
      exact hloads

/-! ## Reacting to a response -/

/-- The files after `key.priv` is written. -/
def Process.withKey (rsa : Rsa K) (s : Process K) : Bytes → Option Bytes :=
  Function.update s.folder.file keyPriv (some (rsa.encodedPrivateKey s.members.privateKey))

/-- The files after `me.info` is written too. -/
def Process.withIdentity (rsa : Rsa K) (s : Process K) (payload : Bytes) :
    Bytes → Option Bytes :=
  Function.update (s.withKey rsa) meInfo
    (some (s.members.userName ++ [0x0a] ++ toHex payload ++ [0x0a] ++
      rsa.encodedPrivateKey s.members.privateKey))

/-- What `responseSelector` does. -/
inductive Reacts (pf : Platform K) (s : Process K) : Except Fault Bool → Process K → Prop where
  | noted {label : ResponseCode} :
      ResponseCode.ofValue s.members.responsePacket.code = some label →
      label ≠ .regSuccessful → label ≠ .validCrcFile → Reacts pf s (.ok true) s
  | unknown : Reacts pf s (.ok false) s
  | created {opens : Nat → Bool} :
      ResponseCode.ofValue s.members.responsePacket.code = some .regSuccessful →
      s.folder.file keyPriv = none → s.folder.file meInfo = none →
      Reacts pf s (.ok true) { s with
        folder := ⟨s.withIdentity pf.rsa s.members.responsePacket.payload, opens⟩ }
  | uncreated {file : Bytes → Option Bytes} {opens : Nat → Bool} :
      file = s.folder.file ∨ s.folder.file keyPriv = none ∧ file = s.withKey pf.rsa →
      Reacts pf s (.ok false) { s with folder := ⟨file, opens⟩ }
  | unlocked {r : Except Fault Bool} {label : ResponseCode} {privateKey : K}
      {eh : EncryptionHandler} {opens : Nat → Bool} :
      ResponseCode.ofValue s.members.responsePacket.code = some label →
      label ≠ .regSuccessful → label ≠ .validCrcFile →
      (privateKey = s.members.privateKey ∨ ∃ key, s.folder.file keyPriv = some key ∧
        pf.rsa.loadPrivateKeyFromBase64 key = some privateKey) →
      Reacts pf s r { s with
        members := { s.members with
          requestHandler := { s.members.requestHandler with eh := eh }
          privateKey := privateKey }
        folder := { s.folder with opens := opens } }
  | compared {crcValid : Bool} :
      ResponseCode.ofValue s.members.responsePacket.code = some .validCrcFile →
      checkSum pf.longBits s.members.requestHandler.transferInfo s.folder.file
        s.members.responsePacket.payload = .ok (true, crcValid) →
      Reacts pf s (.ok true) { s with members := { s.members with crcValid := crcValid } }
  | overrun : Reacts pf s (.error .outOfBounds) s

theorem run_saveEncodedPrivateKey (rsa : Rsa K) (s : Process K) :
    Program.run exec (saveEncodedPrivateKey rsa) s =
      if (s.folder.file keyPriv).isSome then (.ok false, s)
      else if s.folder.opens 0 then
        (.ok true, { s with folder := ⟨s.withKey rsa, s.folder.attempted.opens⟩ })
      else (.ok false, { s with folder := s.folder.attempted }) := by
  simp only [saveEncodedPrivateKey, Program.run_bind, Cpp.run_lookup]
  split
  · rfl
  · simp only [Program.run_bind, Cpp.run_members, Cpp.run_ofstream, Folder.ofstream]
    split <;> rfl

theorem meInfo_ne_keyPriv : meInfo ≠ keyPriv := by decide

@[simp] theorem Process.withKey_keyPriv (rsa : Rsa K) (s : Process K) :
    s.withKey rsa keyPriv = some (rsa.encodedPrivateKey s.members.privateKey) :=
  Function.update_self ..

@[simp] theorem Process.withIdentity_keyPriv (rsa : Rsa K) (s : Process K) (payload : Bytes) :
    s.withIdentity rsa payload keyPriv = some (rsa.encodedPrivateKey s.members.privateKey) := by
  rw [Process.withIdentity, Function.update_of_ne meInfo_ne_keyPriv.symm, withKey_keyPriv]

/-- `createNewClientFile` gets as far as writing `key.priv`. -/
def SavesKey (s : Process K) : Prop := s.folder.file keyPriv = none ∧ s.folder.opens 0 = true

/-- What it asks of the folder behind that write. -/
def SavesIdentity (s : Process K) : Prop :=
  s.folder.file meInfo = none ∧ s.folder.opens 1 = true ∧ s.folder.opens 2 = true

instance (s : Process K) : Decidable (SavesKey s) := inferInstanceAs (Decidable (_ ∧ _))

instance (s : Process K) : Decidable (SavesIdentity s) := inferInstanceAs (Decidable (_ ∧ _))

/-- **What `createNewClientFile` does**, for every folder and every payload. -/
theorem run_createNewClientFile (rsa : Rsa K) (s : Process K) (payload : Bytes) :
    ∃ opens, Program.run exec (createNewClientFile rsa payload) s =
      if SavesKey s then
        if SavesIdentity s then
          (.ok true, { s with folder := ⟨s.withIdentity rsa payload, opens⟩ })
        else (.ok false, { s with folder := ⟨s.withKey rsa, opens⟩ })
      else (.ok false, { s with folder := ⟨s.folder.file, opens⟩ }) := by
  simp only [createNewClientFile, Program.run_bind, run_saveEncodedPrivateKey]
  by_cases hkey : (s.folder.file keyPriv).isSome
  · have hnot : ¬ SavesKey s := fun h => by simp [h.1] at hkey
    refine ⟨s.folder.opens, ?_⟩
    rw [if_pos hkey, if_neg hnot]
    rfl
  rw [if_neg hkey]
  have hkey := Option.not_isSome_iff_eq_none.mp hkey
  by_cases hsaved : s.folder.opens 0
  swap
  · have hnot : ¬ SavesKey s := fun h => hsaved h.2
    refine ⟨s.folder.attempted.opens, ?_⟩
    rw [if_neg hsaved, if_neg hnot]
    rfl
  have hsaves : SavesKey s := ⟨hkey, hsaved⟩
  -- `key.priv` is there now, whatever comes of `me.info`
  have hinfo : s.withKey rsa meInfo = s.folder.file meInfo :=
    Function.update_of_ne meInfo_ne_keyPriv _ _
  have hread : s.withKey rsa keyPriv = some (rsa.encodedPrivateKey s.members.privateKey) :=
    Function.update_self ..
  simp only [if_pos hsaved, if_pos hsaves, Bool.not_true, Bool.false_eq_true, if_false,
    Program.run_bind, Cpp.run_lookup, hinfo]
  by_cases hfree : (s.folder.file meInfo).isSome
  · have hnot : ¬ SavesIdentity s := fun h => by simp [h.1] at hfree
    refine ⟨s.folder.attempted.opens, ?_⟩
    rw [if_pos hfree, if_neg hnot]
    rfl
  rw [if_neg hfree]
  have hfree := Option.not_isSome_iff_eq_none.mp hfree
  simp only [Program.run_bind, Cpp.run_ifstream, Folder.ifstream, hread]
  by_cases hopened : s.folder.attempted.opens 0
  swap
  · have hnot : ¬ SavesIdentity s := fun h => hopened h.2.1
    refine ⟨s.folder.attempted.attempted.opens, ?_⟩
    rw [if_neg hnot]
    simp only [hopened]
    rfl
  simp only [hopened, if_true, Program.run_bind, Cpp.run_members, Cpp.run_ofstream,
    Folder.ofstream]
  refine ⟨s.folder.attempted.attempted.attempted.opens, ?_⟩
  have hthird : (Folder.mk (s.withKey rsa) s.folder.attempted.opens).attempted.opens 0 =
      s.folder.opens 2 := rfl
  by_cases hwritten : s.folder.opens 2
  · have hidentity : SavesIdentity s := ⟨hfree, hopened, hwritten⟩
    simp only [hthird, if_pos hwritten, if_pos hidentity]
    rfl
  · have hnot : ¬ SavesIdentity s := fun h => hwritten h.2.2
    simp only [hthird, if_neg hwritten, if_neg hnot]
    rfl

theorem createNewClientFile_reacts {pf : Platform K} {s : Process K}
    (hcode : ResponseCode.ofValue s.members.responsePacket.code = some .regSuccessful) :
    Reacts pf s
      (Program.run exec (createNewClientFile pf.rsa s.members.responsePacket.payload) s).1
      (Program.run exec (createNewClientFile pf.rsa s.members.responsePacket.payload) s).2 := by
  obtain ⟨opens, hrun⟩ := run_createNewClientFile pf.rsa s s.members.responsePacket.payload
  rw [hrun]
  by_cases hkey : SavesKey s
  · rw [if_pos hkey]
    by_cases hidentity : SavesIdentity s
    · rw [if_pos hidentity]
      exact .created hcode hkey.1 hidentity.1
    · rw [if_neg hidentity]
      exact .uncreated (Or.inr ⟨hkey.1, rfl⟩)
  · rw [if_neg hkey]
    exact .uncreated (Or.inl rfl)

section Unlock

variable {pf : Platform K} {s : Process K} {label : ResponseCode}
  (hcode : ResponseCode.ofValue s.members.responsePacket.code = some label)
  (hnew : label ≠ .regSuccessful) (hcrc : label ≠ .validCrcFile)
include hcode hnew hcrc

/-- Where `decryptAESKey` leaves the process, however it comes out. -/
theorem decryptAESKey_reacts (cipher : Option Bytes) (r : Except Fault Bool) :
    Reacts pf s r (Program.run exec (decryptAESKey pf.rsa cipher) s).2 := by
  have hkept : Reacts pf s r { s with folder := s.folder.attempted } :=
    .unlocked hcode hnew hcrc (Or.inl rfl)
  simp only [decryptAESKey, readPrivateRsaKey, Program.run_bind, Cpp.run_ifstream]
  cases hkey : s.folder.ifstream keyPriv with
  | none => exact hkept
  | some key =>
    have hfile : s.folder.file keyPriv = some key := by
      simp only [Folder.ifstream] at hkey
      split at hkey
      · exact hkey
      · cases hkey
    simp only [Program.pure_eq, Program.run_ret]
    cases hload : pf.rsa.loadPrivateKeyFromBase64 key with
    | none => exact hkept
    | some privateKey =>
      simp only [Program.run_bind, Cpp.run_members, Cpp.run_assign, Cpp.run_lift]
      cases cipher with
      | none => exact .unlocked hcode hnew hcrc (Or.inr ⟨key, hfile, hload⟩)
      | some cipher =>
        simp only [inBounds_some]
        cases pf.rsa.oaepDecrypt privateKey cipher with
        | none => exact .unlocked hcode hnew hcrc (Or.inr ⟨key, hfile, hload⟩)
        | some decrypted =>
          simp only
          split
          · simp only [Program.run_bind, Cpp.run_members, Cpp.run_assign]
            exact .unlocked hcode hnew hcrc (Or.inr ⟨key, hfile, hload⟩)
          · exact .unlocked hcode hnew hcrc (Or.inr ⟨key, hfile, hload⟩)

theorem recieveAesKey_reacts (payload : Bytes) :
    Reacts pf s (Program.run exec (recieveAesKey pf.rsa payload) s).1
      (Program.run exec (recieveAesKey pf.rsa payload) s).2 := by
  have hkept : ∀ r, Reacts pf s r s := fun r => .unlocked hcode hnew hcrc (Or.inl rfl)
  have hbody : ∀ r, Reacts pf s r (Program.run exec
      (if payload.length = uidSize then throw .exception
      else decryptAESKey pf.rsa (cipherOfPayload payload)) s).2 := by
    intro r
    split
    · exact hkept r
    · exact decryptAESKey_reacts hcode hnew hcrc _ r
  rw [recieveAesKey, Cpp.run_catchException]
  exact hbody _

end Unlock

theorem checkSum_error {w : Nat} {ti : TransferInfo} {disk : Bytes → Option Bytes}
    {payload : Bytes} {e : Fault} (h : checkSum w ti disk payload = .error e) :
    e = .outOfBounds := by
  simp only [checkSum] at h
  cases hfile : readfile w (disk ti.path) with
  | none =>
    rw [hfile] at h
    cases h
    rfl
  | some crcClient =>
    cases hcrc : crcOfPayload payload with
    | none =>
      rw [hfile, hcrc] at h
      cases h
      rfl
    | some crc =>
      rw [hfile, hcrc] at h
      cases h

/-- What a checksum that comes to an end compared. -/
theorem checkSum_ok {w : Nat} {ti : TransferInfo} {disk : Bytes → Option Bytes}
    {payload : Bytes} {status crcValid : Bool}
    (h : checkSum w ti disk payload = .ok (status, crcValid)) :
    status = true ∧ ∃ crcClient crc, readfile w (disk ti.path) = some crcClient ∧
      crcOfPayload payload = some crc ∧
      crcValid = (crcClient == BitVec.ofNat w (fromLE crc)) := by
  simp only [checkSum, bind_eq_ok, inBounds_eq_ok] at h
  obtain ⟨crcClient, hclient, crc, hcrc, hvalid⟩ := h
  cases hvalid
  exact ⟨rfl, crcClient, crc, hclient, hcrc, rfl⟩

theorem receiveChecksum_reacts {pf : Platform K} {s : Process K}
    (hcode : ResponseCode.ofValue s.members.responsePacket.code = some .validCrcFile) :
    Reacts pf s
      (Program.run exec (receiveChecksum pf.longBits s.members.responsePacket.payload) s).1
      (Program.run exec (receiveChecksum pf.longBits s.members.responsePacket.payload) s).2 := by
  simp only [receiveChecksum, Program.run_bind, Cpp.run_members, Cpp.run_lookup, Cpp.run_lift]
  have hdisk : checkSum pf.longBits s.members.requestHandler.transferInfo
      (fun _ => s.folder.file s.members.requestHandler.transferInfo.path)
      s.members.responsePacket.payload =
    checkSum pf.longBits s.members.requestHandler.transferInfo s.folder.file
      s.members.responsePacket.payload := rfl
  rw [hdisk]
  rcases hsum : checkSum pf.longBits s.members.requestHandler.transferInfo s.folder.file
    s.members.responsePacket.payload with e | ⟨status, crcValid⟩
  · obtain rfl := checkSum_error hsum
    exact .overrun
  · obtain rfl := (checkSum_ok hsum).1
    simp only [Cpp.run_assign]
    exact .compared hcode hsum

/-- **What `responseSelector` does**, for every response. -/
theorem responseSelector_reacts (pf : Platform K) (s : Process K) :
    Reacts pf s (Program.run exec (responseSelector pf.rsa pf.longBits) s).1
      (Program.run exec (responseSelector pf.rsa pf.longBits) s).2 := by
  simp only [responseSelector, Program.run_bind, Cpp.run_members]
  cases hcode : ResponseCode.ofValue s.members.responsePacket.code with
  | none => exact .unknown
  | some label =>
    cases label with
    | regSuccessful => exact createNewClientFile_reacts hcode
    | validCrcFile => exact receiveChecksum_reacts hcode
    | inPublicOutCrypted => exact recieveAesKey_reacts hcode nofun nofun _
    | okReconnOutAes => exact recieveAesKey_reacts hcode nofun nofun _
    | generalErr => exact .noted hcode nofun nofun
    | regFailed => exact .noted hcode nofun nofun
    | reconnectFailed => exact .noted hcode nofun nofun
    | msgRecieved => exact .noted hcode nofun nofun

/-! ## Sending and receiving -/

/-- What `sendAndRecieve` does: where it can stop, and what it leaves. -/
inductive Exchange (pf : Platform K) (code : RequestCode) (s : Process K) :
    Except Fault Bool → Process K → Prop where
  | unbuilt {e : Fault} {opens : Nat → Bool} :
      Exchange pf code s (.error e) { s with folder := { s.folder with opens := opens } }
  | unsent {e : Fault} {s₁ : Process K} {connection : ConnectionHandler} :
      Loads code s (.ok true) s₁ → Exchange pf code s (.error e) (s₁.sends connection)
  | oneWay {s₁ : Process K} {connection : ConnectionHandler} :
      code = .nValidCrc → Loads code s (.ok true) s₁ →
      Exchange pf code s (.ok true) (s₁.sends connection)
  | unanswered {e : Fault} {s₁ : Process K} {connection connection' : ConnectionHandler}
      {packet : ResponsePacket} :
      Loads code s (.ok true) s₁ →
      Exchange pf code s (.error e) ((s₁.sends connection).misses packet connection')
  | rejected {e : Fault} {r : Except Fault Bool} {s₁ s' : Process K}
      {connection connection' : ConnectionHandler} {packet : ResponsePacket} :
      Loads code s (.ok true) s₁ → r ≠ .ok true →
      Reacts pf ((s₁.sends connection).receives packet connection') r s' →
      Exchange pf code s (.error e) s'
  | accepted {s₁ s' : Process K} {connection connection' : ConnectionHandler}
      {packet : ResponsePacket} :
      code ≠ .nValidCrc → Loads code s (.ok true) s₁ →
      Reacts pf ((s₁.sends connection).receives packet connection') (.ok true) s' →
      Exchange pf code s (.ok true) s'

theorem run_throwIfNot_bind {α : Type} (status : Bool) (f : Unit → Cpp K α) (s : Process K) :
    Program.run exec (throwIfNot status >>= f) s =
      if status then Program.run exec (f ()) s else (.error .exception, s) := by
  cases status <;> rfl

/-- **Every `sendAndRecieve` is an exchange.** -/
theorem sendAndRecieve_exchange (pf : Platform K) (code : RequestCode) (s : Process K) :
    Exchange pf code s (Program.run exec (sendAndRecieve pf code) s).1
      (Program.run exec (sendAndRecieve pf code) s).2 := by
  rw [sendAndRecieve, Program.run_bind]
  have hloads := requestSelector_loads pf.aesEncryptBlock code s
  generalize Program.run exec (requestSelector pf.aesEncryptBlock code) s = loaded at hloads ⊢
  rcases loaded with ⟨e | _ | _, s₁⟩
  · cases hloads with
    | unbuilt _ => exact .unbuilt
  · cases hloads with
    | unbuilt _ => exact .unbuilt
  -- the request is built: it is sent
  simp only [run_throwIfNot_bind, if_true]
  rw [Program.run_bind, Cpp.run_sendData]
  generalize ConnectionHandler.sendData s₁.members.requestPacket s₁.connection = sent
  rcases sent with ⟨e | _ | _, connection⟩
  · exact .unsent hloads
  · exact .unsent hloads
  -- sent as a whole: a 901 ends here, anything else waits for its answer
  simp only [run_throwIfNot_bind, if_true]
  by_cases hone : code = .nValidCrc
  · rw [if_pos hone]
    exact .oneWay hone hloads
  rw [if_neg hone, Program.run_bind, Cpp.run_receiveData, exec]
  generalize ConnectionHandler.receiveData (s₁.sends connection).members.responsePacket
    (s₁.sends connection).connection = received
  rcases received with ⟨e | _ | _, packet, connection'⟩
  · exact .unanswered hloads
  · exact .unanswered hloads
  -- an answer has come in
  simp only [run_throwIfNot_bind, if_true]
  have hreacts := responseSelector_reacts pf ((s₁.sends connection).receives packet connection')
  rw [Program.run_bind]
  generalize Program.run exec (responseSelector pf.rsa pf.longBits)
    ((s₁.sends connection).receives packet connection') = reacted at hreacts ⊢
  rcases reacted with ⟨e | _ | _, s'⟩
  · exact .rejected (r := .error e) hloads (fun h => by cases h) hreacts
  · exact .rejected (r := .ok false) hloads (by decide) hreacts
  · exact .accepted hone hloads hreacts

/-- A request that was built is sent. -/
theorem sendAndRecieve_sends {pf : Platform K} {code : RequestCode} {s s₁ : Process K}
    (h : Program.run exec (requestSelector pf.aesEncryptBlock code) s = (.ok true, s₁)) :
    s₁.log ++ [.sent s₁.members.requestPacket s₁.folder] <+:
      (Program.run exec (sendAndRecieve pf code) s).2.log := by
  rw [sendAndRecieve, Program.run_bind, h]
  simp only [run_throwIfNot_bind, if_true]
  have hsend := log_bind Cpp.sendData (fun sent => do
    throwIfNot sent
    if code = .nValidCrc then
      pure true
    else
      throwIfNot (← Cpp.receiveData)
      throwIfNot (← responseSelector pf.rsa pf.longBits)
      pure true) s₁
  rw [Cpp.run_sendData] at hsend
  exact hsend

/-- A request about the last upload is always built. -/
theorem run_crcRequest (code : RequestCode) (s : Process K)
    (hname : nameSize ≤ s.members.requestHandler.filename.length) :
    ∃ packet, packet.code = code.value ∧
      Program.run exec (loadRequest fun c =>
        crcRequest code c.requestHandler.filename c.requestPacket) s =
          (.ok true, { s with members := { s.members with requestPacket := packet } }) := by
  obtain ⟨packet, hpacket⟩ := crcRequest_succeeds code s.members.requestPacket hname
  exact ⟨packet, (crcRequest_ok hpacket).1, by simp [loadRequest, hpacket]⟩

/-! ## What every exchange keeps -/

section Kept

variable {pf : Platform K} {code : RequestCode} {s s' : Process K} {r : Except Fault Bool}

theorem Loads.log_eq (h : Loads code s r s') : s'.log = s.log := by
  cases h <;> rfl

theorem Loads.transferInfo_eq (h : Loads code s r s') :
    s'.members.requestHandler.transferInfo = s.members.requestHandler.transferInfo := by
  cases h <;> rfl

theorem Reacts.log_eq (h : Reacts pf s r s') : s'.log = s.log := by
  cases h <;> rfl

theorem Reacts.responsePacket_eq (h : Reacts pf s r s') :
    s'.members.responsePacket = s.members.responsePacket := by
  cases h <;> rfl

theorem Reacts.requestPacket_eq (h : Reacts pf s r s') :
    s'.members.requestPacket = s.members.requestPacket := by
  cases h <;> rfl

theorem Reacts.filename_eq (h : Reacts pf s r s') :
    s'.members.requestHandler.filename = s.members.requestHandler.filename := by
  cases h <;> rfl

theorem Reacts.transferInfo_eq (h : Reacts pf s r s') :
    s'.members.requestHandler.transferInfo = s.members.requestHandler.transferInfo := by
  cases h <;> rfl

/-- The flag is the verdict on a 1603, and keeps its value on any other
response. -/
theorem Reacts.crcValid (h : Reacts pf s (.ok true) s') :
    (ResponseCode.ofValue s.members.responsePacket.code = some .validCrcFile ∧
      checkSum pf.longBits s.members.requestHandler.transferInfo s.folder.file
        s.members.responsePacket.payload = .ok (true, s'.members.crcValid)) ∨
    (ResponseCode.ofValue s.members.responsePacket.code ≠ some .validCrcFile ∧
      s'.members.crcValid = s.members.crcValid) := by
  cases h with
  | noted hcode _ hcrc => exact .inr ⟨by simpa [hcode] using hcrc, rfl⟩
  | created hcode _ _ => exact .inr ⟨by simp [hcode], rfl⟩
  | unlocked hcode _ hcrc _ => exact .inr ⟨by simpa [hcode] using hcrc, rfl⟩
  | compared hcode hsum => exact .inl ⟨hcode, hsum⟩

theorem Exchange.transferInfo_eq (h : Exchange pf code s r s') :
    s'.members.requestHandler.transferInfo = s.members.requestHandler.transferInfo := by
  cases h with
  | unbuilt => rfl
  | unsent hloads => exact hloads.transferInfo_eq
  | oneWay _ hloads => exact hloads.transferInfo_eq
  | unanswered hloads => exact hloads.transferInfo_eq
  | rejected hloads _ hreacts => exact hreacts.transferInfo_eq.trans hloads.transferInfo_eq
  | accepted _ hloads hreacts => exact hreacts.transferInfo_eq.trans hloads.transferInfo_eq

/-- A packet that was loaded for a code carries that code. -/
theorem Loads.code_eq (h : Loads code s (.ok true) s') :
    s'.members.requestPacket.code = code.value := by
  cases h with
  | built hbuilt => exact hbuilt.code_eq
  | unbuilt hfalse => exact absurd rfl hfalse

/-- An exchange logs the request it loaded, if it gets that far, and the response
to it. -/
theorem Exchange.logged (h : Exchange pf code s r s') :
    s'.log = s.log ∨ ∃ s₁, Loads code s (.ok true) s₁ ∧
      (s'.log = s.log ++ [Event.sent s₁.members.requestPacket s₁.folder] ∨
        ∃ packet, s'.log = s.log ++ [Event.sent s₁.members.requestPacket s₁.folder] ++
          [Event.received packet s₁.folder]) := by
  cases h with
  | unbuilt => exact .inl rfl
  | unsent hloads => exact .inr ⟨_, hloads, .inl (by rw [← hloads.log_eq]; rfl)⟩
  | oneWay _ hloads => exact .inr ⟨_, hloads, .inl (by rw [← hloads.log_eq]; rfl)⟩
  | unanswered hloads => exact .inr ⟨_, hloads, .inl (by rw [← hloads.log_eq]; rfl)⟩
  | rejected hloads _ hreacts =>
    exact .inr ⟨_, hloads, .inr ⟨_, by rw [hreacts.log_eq, ← hloads.log_eq]; rfl⟩⟩
  | accepted _ hloads hreacts =>
    exact .inr ⟨_, hloads, .inr ⟨_, by rw [hreacts.log_eq, ← hloads.log_eq]; rfl⟩⟩

theorem Loads.crcValid_eq (h : Loads code s r s') :
    s'.members.crcValid = s.members.crcValid := by
  cases h <;> rfl

theorem Loads.upload (h : Loads .sendFile s (.ok true) s') :
    nameSize ≤ s'.members.requestHandler.filename.length ∧
      (s'.folder.file s'.members.requestHandler.transferInfo.path).isSome := by
  cases h with
  | built hbuilt => exact hbuilt.upload rfl
  | unbuilt hfalse => exact absurd rfl hfalse

/-- **An exchange that comes to an end**: the request, its answer, and what the
answer did to the flag. -/
theorem Exchange.answered {b : Bool} (h : Exchange pf code s (.ok b) s')
    (hcode : code ≠ .nValidCrc) :
    ∃ p f g, s'.log = s.log ++ [Event.sent p f] ++
        [Event.received s'.members.responsePacket g] ∧
      p.code = code.value ∧
      (code = .sendFile → nameSize ≤ s'.members.requestHandler.filename.length ∧
        (g.file s'.members.requestHandler.transferInfo.path).isSome) ∧
      ((ResponseCode.ofValue s'.members.responsePacket.code = some .validCrcFile ∧
          checkSum pf.longBits s'.members.requestHandler.transferInfo g.file
            s'.members.responsePacket.payload = .ok (true, s'.members.crcValid)) ∨
        (ResponseCode.ofValue s'.members.responsePacket.code ≠ some .validCrcFile ∧
          s'.members.crcValid = s.members.crcValid)) := by
  cases h with
  | oneWay hone _ => exact absurd hone hcode
  | @accepted s₁ _ _ _ packet _ hloads hreacts =>
    refine ⟨s₁.members.requestPacket, s₁.folder, s₁.folder, ?_, hloads.code_eq, ?_, ?_⟩
    · rw [hreacts.log_eq, hreacts.responsePacket_eq, ← hloads.log_eq]
      rfl
    · rintro rfl
      rw [hreacts.filename_eq, hreacts.transferInfo_eq]
      exact hloads.upload
    · rw [hreacts.responsePacket_eq, hreacts.transferInfo_eq, ← hloads.crcValid_eq]
      exact hreacts.crcValid

end Kept

end FileTransfer.Client
