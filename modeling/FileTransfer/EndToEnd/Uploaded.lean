import FileTransfer.EndToEnd.Answered
import FileTransfer.EndToEnd.FileName
import FileTransfer.Server.Outcomes

/-!
# The exchanges of an upload

The 828, 900 and 901 of a connected client, against a server whose statements and
calls on paths may fail, and with other threads at work between two of its requests.
Each exchange keeps who the client is and what it uploads; an 828 that satisfied the
client has left a file with its checksum, and a 900 or 901 takes nothing of it back.
-/

namespace FileTransfer.EndToEnd

open FileTransfer.Client FileTransfer.Server FileTransfer.Effect FileTransfer.BlockMode
open Program (Triple)

/-! ## The server's side -/

/-- What others at work leave alone of the client `uid` and its file `name`. -/
structure Spares (env : Env) (uid : Uid) (name : Str) (w w' : World) : Prop where
  client : w'.clients.find? (·.uuid = uid) = w.clients.find? (·.uuid = uid)
  row : ∀ frow ∈ w.files, frow.uuid = uid → frow ∈ w'.files
  content : ∀ row content, w.clients.find? (·.uuid = uid) = some row →
    w.disk.fileAt ((userDir env row.userName).join name).resolve = some content →
    w'.disk.fileAt ((userDir env row.userName).join name).resolve = some content

/-- What happens between the requests spares the client's file as long as the world is
`Safe`, and neither that nor a request of the client, other than to register, makes it
unsafe. -/
structure Sparing (env : Env) (crypto : Crypto) (meanwhile : Nat → World → World)
    (Safe : World → Prop) (uid : Uid) (name : Str) : Prop where
  spares : ∀ n w, Safe w → Spares env uid name w (meanwhile n w)
  kept : ∀ n w, Safe w → Safe (meanwhile n w)
  served : ∀ s : Step, s.header.uid = uid → s.header.code ≠ Constants.register →
    Safe s.before → Safe (s.after env crypto)

/-- The client has its file `name` in its directory, with a content that satisfies `P`,
and a row in the files table that satisfies `Q`. -/
structure Backed (env : Env) (uid : Uid) (name : Str) (P : Bytes → Prop) (Q : FileRow → Prop)
    (w : World) : Prop where
  stored : ∃ row content, w.clients.find? (·.uuid = uid) = some row ∧
    w.disk.fileAt ((userDir env row.userName).join name).resolve = some content ∧ P content
  listed : ∃ frow ∈ w.files, frow.uuid = uid ∧ Q frow

section Backed

variable {env : Env} {uid : Uid} {name : Str} {P : Bytes → Prop} {Q : FileRow → Prop}
  {w w' : World}

theorem Backed.spared (h : Backed env uid name P Q w) (hspares : Spares env uid name w w') :
    Backed env uid name P Q w' := by
  obtain ⟨⟨row, content, hrow, hread, hcontent⟩, frow, hmem, huid, hfrow⟩ := h
  exact ⟨⟨row, content, hspares.client.trans hrow, hspares.content row content hrow hread,
    hcontent⟩, frow, hspares.row frow hmem huid, huid, hfrow⟩

theorem Backed.mono {Q' : FileRow → Prop} (h : Backed env uid name P Q w)
    (hQ : ∀ frow, Q frow → Q' frow) : Backed env uid name P Q' w := by
  obtain ⟨hstored, frow, hmem, huid, hfrow⟩ := h
  exact ⟨hstored, frow, hmem, huid, hQ frow hfrow⟩

/-- Marking rows as verified. -/
theorem Backed.marked (h : Backed env uid name P (fun _ => True) w)
    (hclients : w'.clients = w.clients) (hdisk : w'.disk = w.disk)
    (hfiles : w'.files = markVerified w.files uid name) :
    Backed env uid name P (fun frow => frow.fileName = name → frow.verified = 1) w' := by
  obtain ⟨⟨row, content, hrow, hread, hcontent⟩, frow, hmem, huid, -⟩ := h
  refine ⟨⟨row, content, by rw [hclients]; exact hrow, by rw [hdisk]; exact hread, hcontent⟩, ?_⟩
  by_cases hmarked : frow.uuid = uid ∧ (name = [] ∨ frow.fileName = name)
  · refine ⟨{ frow with verified := 1 }, ?_, huid, fun _ => rfl⟩
    rw [hfiles]
    exact mem_markVerified.mpr ⟨frow, hmem, if_pos hmarked⟩
  · refine ⟨frow, ?_, huid, fun hsame => absurd ⟨huid, .inr hsame⟩ hmarked⟩
    rw [hfiles]
    exact mem_markVerified.mpr ⟨frow, hmem, if_neg hmarked⟩

/-- A row that is offered is in the table, or another one of the client is. -/
theorem exists_insertOrIgnore (files : Table FileRow.uuid) (new : FileRow) :
    ∃ frow ∈ files.insertOrIgnore new, frow.uuid = new.uuid := by
  by_cases hfree : ∀ row ∈ files, row.uuid ≠ new.uuid
  · exact ⟨new, Table.mem_insertOrIgnore.mpr (.inr ⟨rfl, hfree⟩), rfl⟩
  · push Not at hfree
    obtain ⟨row, hrow, huid⟩ := hfree
    exact ⟨row, Table.mem_insertOrIgnore.mpr (.inl hrow), huid⟩

end Backed

/-! ## What the client keeps -/

/-- The client `uid` is at work on the file at the path in `ti`. -/
structure AtWork {K : Type} (Safe : World → Prop) (uid : Uid) (ti : TransferInfo)
    (file : Bytes) (s : Linked K Amid) : Prop where
  inStep : InStep s
  safe : Safe s.server.state.world
  clientID : s.client.members.requestPacket.clientID = uid
  transferInfo_eq : s.client.members.requestHandler.transferInfo = ti
  file_eq : s.client.folder.file ti.path = some file

/-- The key of the client, and its row at the server. -/
structure Keyed {K : Type} (uid : Uid) (key : Bytes) (row : Option ClientRow)
    (s : Linked K Amid) : Prop where
  key_eq : s.client.members.requestHandler.eh.key = key
  row_eq : s.server.state.world.clients.find? (·.uuid = uid) = row

section Client

variable {K : Type} {pf : Platform K} {env : Env} {crypto : Crypto}
  {meanwhile : Nat → World → World} {Safe : World → Prop} {code : RequestCode} {uid : Uid}
  {ti : TransferInfo} {name : Str} {file : Bytes}

/-- A file that is there is not written to. -/
theorem Reacts.file_eq {s s' : Process K} {r : Except Fault Bool} (h : Reacts pf s r s')
    {path : Bytes} (hfile : s.folder.file path = some file) :
    s'.folder.file path = some file := by
  have hother : ∀ name, s.folder.file name = none → path ≠ name := by
    intro name hnone heq
    rw [heq, hnone] at hfile
    cases hfile
  have hkey : s.folder.file keyPriv = none → s.withKey pf.rsa path = some file := fun hnone => by
    rw [Process.withKey, Function.update_of_ne (hother keyPriv hnone)]
    exact hfile
  cases h with
  | created _ hnokey hnome =>
    show s.withIdentity pf.rsa s.members.responsePacket.payload path = some file
    rw [Process.withIdentity, Function.update_of_ne (hother meInfo hnome)]
    exact hkey hnokey
  | uncreated hsame =>
    rcases hsame with rfl | ⟨hnokey, rfl⟩
    · exact hfile
    · exact hkey hnokey
  | _ => exact hfile

/-- What loading a request, other than to register or to sign in, keeps. -/
theorem loads_atWork {c c' : Process K} (h : Loads code c (.ok true) c')
    (hregister : code ≠ .register) (hreconnect : code ≠ .reconnect) :
    c'.members.requestPacket.clientID = c.members.requestPacket.clientID ∧
      c'.members.requestHandler.transferInfo = c.members.requestHandler.transferInfo ∧
      c'.folder.file = c.folder.file ∧ c'.members.requestPacket.code = code.value := by
  cases h with
  | built hbuilt =>
    refine ⟨?_, rfl, rfl, hbuilt.code_eq⟩
    have hid := hbuilt.clientID
    cases code with
    | register => exact absurd rfl hregister
    | reconnect => exact absurd rfl hreconnect
    | _ => exact hid
  | unbuilt hfalse => exact absurd rfl hfalse

/-- The code of a request, as the server has it. -/
theorem Answered.code_received {σ : Type}
    {select : Header → Bytes → σ → Except Raised Handled × σ} {s s' : Linked K σ}
    {c : Process K} {r : Request} {answer : Response}
    (h : Answered select pf code s s' c r answer) : r.received.1.code = code.value.toNat := by
  rw [Request.received, h.code_eq]

/-- What `req_select` made of the request. -/
theorem Answered.serve_eq {s s' : Linked K Amid} {c : Process K} {r : Request} {answer : Response}
    (h : Answered (serveAmid env crypto meanwhile) pf code s s' c r answer) :
    ∃ response, serve env crypto r.received.1 r.received.2
        (meanwhile s.server.state.round s.server.state.world) =
      (.ok (.response response), s'.server.state.world) ∧ answer.build = .ok response := by
  obtain ⟨response, hserve, hbuilt⟩ := h.served
  have hfst := congrArg (fun result => result.1) hserve
  have hsnd := congrArg (fun result => result.2.world) hserve
  exact ⟨response, Prod.ext hfst hsnd, hbuilt⟩

/-- The world behind an exchange. -/
theorem Answered.world_eq {s s' : Linked K Amid} {c : Process K} {r : Request} {answer : Response}
    (h : Answered (serveAmid env crypto meanwhile) pf code s s' c r answer) :
    s'.server.state.world = Step.after env crypto ⟨r.received.1, r.received.2,
      meanwhile s.server.state.round s.server.state.world⟩ := by
  obtain ⟨response, hserve, -⟩ := h.serve_eq
  exact (congrArg Prod.snd hserve).symm

theorem Answered.atWork {s s' : Linked K Amid} {c : Process K} {r : Request} {answer : Response}
    (h : Answered (serveAmid env crypto meanwhile) pf code s s' c r answer)
    (hspares : Sparing env crypto meanwhile Safe uid name) (hs : AtWork Safe uid ti file s)
    (hin : InStep s') (hregister : code ≠ .register) (hreconnect : code ≠ .reconnect) :
    AtWork Safe uid ti file s' ∧ r.clientID = uid ∧
      s'.client.members.requestPacket.code = code.value := by
  have hloads := requestSelector_loads pf.aesEncryptBlock code s.client
  have hreacts := responseSelector_reacts pf
    (exchanged c answer.packet (after s.client.connection r.wire))
  rw [h.loaded] at hloads
  rw [h.reacted] at hreacts
  obtain ⟨hid, hti, hfolder, hcode⟩ := loads_atWork hloads hregister hreconnect
  have hpacket : s'.client.members.requestPacket = c.members.requestPacket :=
    hreacts.requestPacket_eq
  have hprepared : c.members.requestPacket.clientID = r.clientID := by
    rw [h.request]
    rfl
  have hclient : r.clientID = uid := by rw [← hprepared, hid, hs.clientID]
  refine ⟨⟨hin, ?_, ?_, ?_, ?_⟩, hclient, ?_⟩
  · rw [h.world_eq]
    refine hspares.served _ hclient ?_ (hspares.kept _ _ hs.safe)
    show r.received.1.code ≠ _
    rw [h.code_received]
    cases code <;> first | decide | exact absurd rfl hregister
  · rw [hpacket, hid, hs.clientID]
  · exact hreacts.transferInfo_eq.trans (hti.trans hs.transferInfo_eq)
  · refine Reacts.file_eq hreacts ?_
    show c.folder.file ti.path = some file
    rw [hfolder]
    exact hs.file_eq
  · rw [hpacket, hcode]

/-- What the process is after a request was loaded that is built from the members. -/
theorem run_loadRequest_ok {request : Members K → Except Fault RequestPacket} {c c' : Process K}
    (h : Program.run Client.exec (loadRequest request) c = (.ok true, c')) :
    ∃ packet, request c.members = .ok packet ∧
      c' = { c with members := { c.members with requestPacket := packet } } := by
  simp only [loadRequest, Program.run_bind, Cpp.run_members, Cpp.run_lift] at h
  cases hrequest : request c.members with
  | error e =>
    rw [hrequest] at h
    cases h
  | ok packet =>
    rw [hrequest] at h
    simp only [Cpp.run_assign, Program.pure_eq, Program.run_ret] at h
    cases h
    exact ⟨packet, rfl, rfl⟩

/-- What the process is after the request of an upload was loaded. -/
theorem run_loadUpload_ok {aes : Bytes → Bytes → Bytes} {c c' : Process K}
    (h : Program.run Client.exec (loadUpload aes) c = (.ok true, c')) :
    ∃ rh packet, c.members.requestHandler.encryptFile aes
        (fun _ => c.folder.file c.members.requestHandler.transferInfo.path)
        c.members.requestPacket = .ok (true, rh, packet) ∧
      rh = { c.members.requestHandler with filename := rh.filename } ∧
      c' = { c with
        members := { c.members with requestHandler := rh, requestPacket := packet }
        folder := c.folder.attempted } := by
  simp only [loadUpload, Program.run_bind, Cpp.run_members, Cpp.run_ifstream, Cpp.run_lift] at h
  rcases hencrypt : c.members.requestHandler.encryptFile aes
    (fun _ => c.folder.ifstream c.members.requestHandler.transferInfo.path)
    c.members.requestPacket with e | ⟨status, rh, packet⟩
  · rw [hencrypt] at h
    cases h
  rw [hencrypt] at h
  simp only [Cpp.run_assign, Program.pure_eq, Program.run_ret] at h
  cases h
  obtain ⟨-, -, hrh, -, hthere⟩ := encryptFile_built hencrypt
  have hopened : c.folder.ifstream c.members.requestHandler.transferInfo.path =
      c.folder.file c.members.requestHandler.transferInfo.path := by
    simp only [Folder.ifstream] at hthere ⊢
    split at hthere
    · next hopens => rw [if_pos hopens]
    · cases hthere
  rw [hopened] at hencrypt
  exact ⟨rh, packet, hencrypt, hrh, rfl⟩

end Client

/-! ## Single exchanges of an upload -/

section Exchanges

variable {K : Type} {pf : Platform K} {env : Env} {crypto : Crypto}
  {meanwhile : Nat → World → World} {Safe : World → Prop} {uid : Uid} {ti : TransferInfo}
  {name : Str} {file key : Bytes} {row : Option ClientRow}

/-- The stored content of an upload: it has the checksum of the local file, and it is the
local file if the client has the key in its row. -/
def Faithful (file key : Bytes) (row : Option ClientRow) (content : Bytes) : Prop :=
  memcrc content = memcrc file ∧ ∀ r, row = some r → r.aesKey = key → content = file

/-- Under the client's own key the server recovers the file. -/
theorem decrypted_ciphertext {E : Bytes → Bytes → Bytes} {r : ClientRow} {payload : Bytes}
    (hkey : r.aesKey.length = 32)
    (hE : Inverts 16 (E r.aesKey) (crypto.aesDecryptBlock r.aesKey))
    (hcontent : payload.drop Constants.contentIndex = ciphertext E r.aesKey file) :
    decrypted crypto r payload = .ok file := by
  have hlen := length_ciphertext hE file
  have hwhole : ¬ (ciphertext E r.aesKey file).length % 16 ≠ 0 := by omega
  have hsize : ¬ (r.aesKey.length ≠ 16 ∧ r.aesKey.length ≠ 24 ∧ r.aesKey.length ≠ 32) := by omega
  have hdecrypt : aesCbcDecrypt crypto r.aesKey (ciphertext E r.aesKey file) =
      .ok (pad 16 file) := by
    rw [aesCbcDecrypt, if_neg hsize, if_neg hwhole]
    exact congrArg _ (decrypt_pad hE (by decide) (by decide) file)
  rw [decrypted, decryptedWith, hcontent, hdecrypt]
  show unpadAes (pad 16 file) = .ok file
  rw [unpadAes, unpad_pad (by decide) (by decide)]

/-- Where the server looks for the content of an upload. -/
theorem drop_uploadHeader (hname : EndsIn ti name) (size orig : Nat) (packs : UInt16)
    (content : Bytes) :
    (uploadHeader size orig packs (ti.getFileName.take 255) ++ content).drop
      Constants.contentIndex = content := by
  refine List.drop_left' ?_
  simp only [uploadHeader, List.length_append, length_toLE, List.length_take,
    hname.length_getFileName]
  rfl

/-- The flag says whether the two checksums are the same. -/
theorem checkSum_iff {w : Nat} (hw : 32 ≤ w) {disk : Bytes → Option Bytes} {front : Bytes}
    {crc : Nat} {crcValid : Bool} (hlocal : disk ti.path = some file)
    (hsize : file.length < 2 ^ 31) (hcrc : crc < 2 ^ 32)
    (h : checkSum w ti disk (front ++ toLE 4 crc) = .ok (true, crcValid)) :
    crcValid = true ↔ memcrc file = some crc := by
  obtain ⟨-, crcClient, bytes, hclient, hbytes, rfl⟩ := checkSum_ok h
  obtain ⟨crc', hclient', hserver, hfits⟩ := memcrc_agrees hw hsize
  have hlast : crcOfPayload (front ++ toLE 4 crc) = some (toLE 4 crc) := by
    have hlen : 4 ≤ (front ++ toLE 4 crc).length := by simp
    rw [crcOfPayload, if_pos hlen, List.length_append, length_toLE, Nat.add_sub_cancel,
      List.drop_left]
  obtain rfl : crcClient = crc' := by
    rw [hlocal] at hclient
    exact Option.some.inj (hclient.symm.trans hclient')
  obtain rfl : bytes = toLE 4 crc := Option.some.inj (hbytes.symm.trans hlast)
  have hpow : (2 : Nat) ^ 32 ≤ 2 ^ w := Nat.pow_le_pow_right (by decide) hw
  rw [hserver, fromLE_toLE hcrc, beq_iff_eq, Option.some_inj]
  constructor
  · intro heq
    rw [heq, BitVec.toNat_ofNat, Nat.mod_eq_of_lt (by omega)]
  · intro heq
    rw [← heq, BitVec.ofNat_toNat, BitVec.setWidth_eq]

/-- What an 828 that was answered leaves: a 1607 changes no flag; with a 1603 the flag says
that the content on the server has the checksum of the file, and the flag is set if the
keys agree. -/
structure Uploaded (env : Env) (uid : Uid) (ti : TransferInfo) (name : Str) (file key : Bytes)
    (row : Option ClientRow) (s s' : Linked K Amid) : Prop where
  code_eq : s'.client.members.requestPacket.code = RequestCode.sendFile.value
  filename_eq : s'.client.members.requestHandler.filename = ti.getFileName
  answered : (s'.client.members.responsePacket.code = ResponseCode.generalErr.value ∧
      s'.client.members.crcValid = s.client.members.crcValid) ∨
    (s'.client.members.responsePacket.code = ResponseCode.validCrcFile.value ∧
      (s'.client.members.crcValid = true →
        Backed env uid name (Faithful file key row) (fun _ => True) s'.server.state.world) ∧
      ((∃ r, row = some r ∧ r.aesKey = key) → s'.client.members.crcValid = true))

section Single

variable {code : RequestCode} {s s' : Linked K Amid} {c : Process K} {r : Request}
  {answer : Response}

/-- The error response, as the client has it. -/
theorem answer_refused (h : answer.build = .ok errorResponse) :
    answer.packet.code = ResponseCode.generalErr.value := by
  have hbuilt : (⟨3, 1607, []⟩ : Response).build = .ok errorResponse := rfl
  rw [build_injective h hbuilt]
  rfl

/-- The row of the client is what it was. -/
theorem Answered.row_eq
    (h : Answered (serveAmid env crypto meanwhile) pf code s s' c r answer)
    (hspares : Sparing env crypto meanwhile Safe uid name)
    (hsafe : Safe s.server.state.world) (hregister : code ≠ .register)
    (hkey : code ≠ .sPublicKey) (hreconnect : code ≠ .reconnect) :
    s'.server.state.world.clients.find? (·.uuid = uid) =
      s.server.state.world.clients.find? (·.uuid = uid) := by
  have hclients := @Step.clients_after_other env crypto
    ⟨r.received.1, r.received.2, meanwhile s.server.state.round s.server.state.world⟩
  rw [h.world_eq, hclients, (hspares.spares _ _ hsafe).client]
  · show r.received.1.code ≠ _
    rw [h.code_received]
    cases code <;> first | decide | exact absurd rfl hregister
  · show r.received.1.code ≠ _
    rw [h.code_received]
    cases code <;> first | decide | exact absurd rfl hkey
  · show r.received.1.code ≠ _
    rw [h.code_received]
    cases code <;> first | decide | exact absurd rfl hreconnect

variable (hname : EndsIn ti name) (hspares : Sparing env crypto meanwhile Safe uid name)
include hname hspares

/-- **One answered 828.** -/
theorem Answered.uploaded
    (h : Answered (serveAmid env crypto meanwhile) pf .sendFile s s' c r answer)
    (hs : AtWork Safe uid ti file s) (hkeyed : Keyed uid key row s) (hin : InStep s')
    (hAES : ∀ k : Bytes, k.length = 32 →
      Inverts 16 (pf.aesEncryptBlock k) (crypto.aesDecryptBlock k)) (hw : 32 ≤ pf.longBits) :
    AtWork Safe uid ti file s' ∧ Keyed uid key row s' ∧
      Uploaded env uid ti name file key row s s' := by
  obtain ⟨hwork, hid, hcode⟩ := h.atWork hspares hs hin (by decide) (by decide)
  have hrow : s'.server.state.world.clients.find? (·.uuid = uid) = row :=
    (h.row_eq hspares hs.safe (by decide) (by decide) (by decide)).trans hkeyed.row_eq
  obtain ⟨rh, packet, hencrypt, hrh, rfl⟩ := run_loadUpload_ok h.loaded
  obtain ⟨hfilename, hupload⟩ := hname.uploadName hs.transferInfo_eq hencrypt
  have hti := hs.transferInfo_eq
  have heh : s.client.members.requestHandler.eh.key = key := hkeyed.key_eq
  have hkeyLength : key.length = 32 := by
    rw [← heh]
    exact EncryptionHandler.key_length _
  have hlocal : s.client.folder.file s.client.members.requestHandler.transferInfo.path =
      some file := by
    rw [hti]
    exact hs.file_eq
  obtain ⟨hsize, packs, hpayload⟩ := encryptFile_ok (heh.symm ▸ hAES key hkeyLength) hlocal hencrypt
  rw [heh, hti] at hpayload
  have hsent : packet.payload = r.payload := congrArg RequestPacket.payload h.request
  obtain ⟨response, hserve, hbuilt⟩ := h.serve_eq
  have hrcode : r.received.1.code = Constants.sendFile := by
    rw [Request.received, h.code_eq]
    rfl
  have hreacted := h.reacted
  rcases upload_outcome hrcode hserve with rfl |
    ⟨name', row', content, crc, d, hname', hrow', hcontent, hclients, hfiles, -, hwrite, hcrc,
      hchecked⟩
  · -- refused: the client notes it
    have hlabel := answer_refused hbuilt
    rw [run_responseSelector_noted (ResponseCode.ofValue_eq_some.mpr hlabel.symm) (.inl rfl)]
      at hreacted
    obtain ⟨-, hclient⟩ := Prod.mk.inj hreacted
    refine ⟨hwork, ⟨?_, hrow⟩, ⟨hcode, ?_, .inl ⟨?_, ?_⟩⟩⟩
    · rw [← hclient, ← heh]
      exact congrArg (fun rh => rh.eh.key) hrh
    · rw [← hclient]
      exact hfilename
    · rw [← hclient]
      exact hlabel
    · rw [← hclient]
      rfl
  · -- stored: the client compares the checksums
    have hruid : r.received.1.uid = uid := hid
    have hrpayload : r.received.2 = packet.payload := hsent.symm
    rw [hruid] at hrow' hfiles hchecked
    rw [hrpayload] at hname' hcontent hchecked
    obtain rfl : name' = name := Option.some.inj (hname'.symm.trans hupload)
    obtain rfl : row = some row' := by
      rw [← hkeyed.row_eq,
        ← (hspares.spares s.server.state.round s.server.state.world hs.safe).client, hrow']
    obtain ⟨hcrcFits, hresponse⟩ := Saving.of_checked_ok hchecked
    obtain rfl := @build_injective _ ⟨Constants.version, Constants.validFileCrc,
      uid.bytes ++ packet.payload.take Constants.uint32T ++ utf8Encode name' ++ toLE 4 crc⟩ _
      hbuilt hresponse
    have hexact : row'.aesKey = key → content = file := by
      intro hkey
      have hsame := @decrypted_ciphertext crypto file pf.aesEncryptBlock row' packet.payload
        (hkey ▸ hkeyLength) (hAES _ (hkey ▸ hkeyLength))
        (by rw [hpayload, hkey]; exact drop_uploadHeader hname _ _ _ _)
      rw [hcontent] at hsame
      cases hsame
      rfl
    obtain ⟨crcValid, hsum, hclient⟩ := run_responseSelector_crc
      (ResponseCode.ofValue_eq_some.mpr rfl) hreacted
    have hrhti : rh.transferInfo = ti := by
      rw [hrh]
      exact hti
    have hverdict := @checkSum_iff ti file pf.longBits hw s.client.folder.file _ crc crcValid
      hs.file_eq (by omega) hcrcFits (hrhti ▸ hsum)
    refine ⟨hwork, ⟨?_, hrow⟩, ⟨hcode, ?_, .inr ⟨?_, fun hvalid => ?_, fun hagree => ?_⟩⟩⟩
    · rw [hclient, ← heh]
      exact congrArg (fun rh => rh.eh.key) hrh
    · rw [hclient]
      exact hfilename
    · rw [hclient]
      rfl
    · rw [hclient] at hvalid
      obtain ⟨frow, hmem, huid⟩ := exists_insertOrIgnore
        (meanwhile s.server.state.round s.server.state.world).files
        ⟨uid, name', (userDir env row'.userName).str, 0⟩
      rw [← hfiles] at hmem
      have hstored : s'.server.state.world.disk.fileAt
          ((userDir env row'.userName).join name').resolve = some content := by
        rw [Disk.fileAt, (Disk.write_ok hwrite).2, Function.update_self]
      refine ⟨⟨row', content, hrow, hstored, ?_, fun r hr hkey => ?_⟩, frow, hmem, huid, trivial⟩
      · rw [hcrc, hverdict.mp hvalid]
      · cases hr
        exact hexact hkey
    · obtain ⟨r', hr', hkey⟩ := hagree
      cases hr'
      rw [hclient]
      refine hverdict.mpr ?_
      rw [← hexact hkey, hcrc]

omit hname in
/-- **A 901 that went out** takes nothing back. -/
theorem resent_kept {b : Bool} (hs : AtWork Safe uid ti file s) (hkeyed : Keyed uid key row s)
    (hin : InStep s')
    (h : Program.run (Linked.exec (serveAmid env crypto meanwhile))
      (sendAndRecieve pf .nValidCrc) s = (.ok b, s')) :
    AtWork Safe uid ti file s' ∧ Keyed uid key row s' ∧
      s'.client.members.crcValid = s.client.members.crcValid := by
  obtain ⟨c, r, connection, hload, hcode, -, hclient, hserver⟩ := resent_of_ok hs.inStep h
  obtain ⟨packet, hpacket, rfl⟩ := run_loadRequest_ok hload
  -- whether or not the thread is there, only others have done something
  have hworld : s'.server.state.world = s.server.state.world ∨ s'.server.state.world =
      meanwhile s.server.state.round s.server.state.world := by
    rcases hserver with hsame | hserved
    · exact .inl (congrArg _ hsame)
    · have hversion : r.received.1.version = Constants.version := rfl
      have hresend : r.received.1.code = Constants.nValidCrc := by
        rw [Request.received, hcode]
        rfl
      have hserve : serveAmid env crypto meanwhile r.received.1 r.received.2 s.server.state =
          (.ok .handleRequest, ⟨meanwhile s.server.state.round s.server.state.world,
            s.server.state.round + 1⟩) := by
        rw [serveAmid, serve_resend hversion hresend]
      rw [hserved, hserve]
      exact .inr rfl
  have hspared : Safe s'.server.state.world ∧
      s'.server.state.world.clients.find? (·.uuid = uid) =
        s.server.state.world.clients.find? (·.uuid = uid) := by
    rcases hworld with hsame | hchanged
    · rw [hsame]
      exact ⟨hs.safe, rfl⟩
    · rw [hchanged]
      exact ⟨hspares.kept _ _ hs.safe, (hspares.spares _ _ hs.safe).client⟩
  refine ⟨⟨hin, hspared.1, ?_, ?_, ?_⟩, ⟨?_, hspared.2.trans hkeyed.row_eq⟩, ?_⟩
  · rw [hclient]
    exact (crcRequest_ok hpacket).2.trans hs.clientID
  · rw [hclient]
    exact hs.transferInfo_eq
  · rw [hclient]
    exact hs.file_eq
  · rw [hclient]
    exact hkeyed.key_eq
  · rw [hclient]
    rfl

/-- **One answered 900.** What is stored stays so, and a 1604 says that it is marked. -/
theorem Answered.confirmed
    (h : Answered (serveAmid env crypto meanwhile) pf .validCrc s s' c r answer)
    (hs : AtWork Safe uid ti file s) (hkeyed : Keyed uid key row s) (hin : InStep s')
    (hfilename : s.client.members.requestHandler.filename = ti.getFileName)
    (hbacked : Backed env uid name (Faithful file key row) (fun _ => True) s.server.state.world) :
    AtWork Safe uid ti file s' ∧ Keyed uid key row s' ∧
      s'.client.members.requestHandler.filename = ti.getFileName ∧
      Backed env uid name (Faithful file key row) (fun frow =>
        s'.client.members.responsePacket.code = ResponseCode.msgRecieved.value →
          frow.fileName = name → frow.verified = 1) s'.server.state.world := by
  obtain ⟨hwork, hid, -⟩ := h.atWork hspares hs hin (by decide) (by decide)
  have hrow : s'.server.state.world.clients.find? (·.uuid = uid) = row :=
    (h.row_eq hspares hs.safe (by decide) (by decide) (by decide)).trans hkeyed.row_eq
  obtain ⟨packet, hpacket, rfl⟩ := run_loadRequest_ok h.loaded
  rw [hfilename] at hpacket
  have hfinal := hname.finalName hpacket
  obtain ⟨response, hserve, hbuilt⟩ := h.serve_eq
  have hrcode : r.received.1.code = Constants.validCrc := by
    rw [Request.received, h.code_eq]
    rfl
  have hspared := hbacked.spared (hspares.spares s.server.state.round s.server.state.world hs.safe)
  obtain ⟨hclients, hdisk, houtcome⟩ := confirm_outcome rfl hrcode hserve
  -- either answer is only noted
  have hanswer : ∃ label : ResponseCode, answer.packet.code = label.value ∧
      (label = .generalErr ∨ label = .msgRecieved) ∧
      Backed env uid name (Faithful file key row) (fun frow =>
        label = .msgRecieved → frow.fileName = name → frow.verified = 1) s'.server.state.world := by
    rcases houtcome with ⟨rfl, hfiles⟩ | ⟨rfl, name', hname', hfiles⟩
    · refine ⟨.generalErr, answer_refused hbuilt, .inl rfl, ?_⟩
      obtain ⟨⟨row', content, hrow', hread, hcontent⟩, frow, hmem, huid, -⟩ := hspared
      refine ⟨⟨row', content, by rw [hclients]; exact hrow', by rw [hdisk]; exact hread,
        hcontent⟩, frow, by rw [hfiles]; exact hmem, huid, fun hlabel => by cases hlabel⟩
    · obtain rfl : name' = name := by
        have hpayload : r.received.2 = packet.payload :=
          (congrArg RequestPacket.payload h.request).symm
        rw [hpayload, hfinal] at hname'
        exact (Option.some.inj hname').symm
      have hruid : r.received.1.uid = uid := hid
      rw [hruid] at hfiles
      obtain rfl := @build_injective _ ⟨Constants.version, Constants.fileApproval,
        r.received.1.uid.bytes⟩ _ hbuilt
        (initResponse_uid (show Constants.fileApproval < 2 ^ 16 by decide) _)
      exact ⟨.msgRecieved, rfl, .inr rfl,
        (hspared.marked hclients hdisk hfiles).mono fun frow hfrow _ => hfrow⟩
  obtain ⟨label, hlabel, hkind, hlisted⟩ := hanswer
  have hreacted := h.reacted
  rw [run_responseSelector_noted (ResponseCode.ofValue_eq_some.mpr hlabel.symm)
    (hkind.imp_right fun hsame => .inr (.inr hsame))] at hreacted
  obtain ⟨-, hclient⟩ := Prod.mk.inj hreacted
  have hcode' : s'.client.members.responsePacket.code = label.value := by
    rw [← hclient]
    exact hlabel
  refine ⟨hwork, ⟨?_, hrow⟩, ?_, hlisted.mono fun frow hfrow haccepted => hfrow ?_⟩
  · rw [← hclient]
    exact hkeyed.key_eq
  · rw [← hclient]
    exact hfilename
  · have hmine := ResponseCode.ofValue_eq_some.mpr hcode'.symm
    rw [ResponseCode.ofValue_eq_some.mpr haccepted.symm] at hmine
    exact (Option.some.inj hmine).symm

end Single

end Exchanges

end FileTransfer.EndToEnd
