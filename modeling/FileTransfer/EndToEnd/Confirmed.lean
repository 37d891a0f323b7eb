import FileTransfer.Client.Resending
import FileTransfer.EndToEnd.Others

/-!
# A confirmed upload is stored

`uploadFile` as a whole, of a connected client and with others at work between its
requests. Each part of it has a triple over the single exchanges: what has been stored
when the part lets the next one follow, and that otherwise the last request was no 900.
-/

namespace FileTransfer.EndToEnd

open FileTransfer.Client FileTransfer.Server FileTransfer.Effect FileTransfer.BlockMode
  FileTransfer.PurePath
open Program (Triple)

/-! ## Exchanges and resends -/

section Rules

variable {K σ : Type} {select : Header → Bytes → σ → Except Raised Handled × σ} {pf : Platform K}
  {code : RequestCode} {I J : Linked K σ → Prop}

/-- Nothing is said of a run that throws. -/
def Thrown (_ : Fault) (_ : Linked K σ) : Prop := True

/-- What an answered exchange comes to. -/
theorem triple_exchange (hpolite : Polite select) (hcode : code ≠ .nValidCrc)
    (hin : ∀ s, I s → InStep s)
    (hstep : ∀ s s' c r answer, I s → InStep s' → Answered select pf code s s' c r answer → J s') :
    Triple (Linked.exec select) I (sendAndRecieve pf code) (fun _ => J) Thrown := by
  intro s hs
  have hin' := sendAndRecieve_inStep pf hpolite code s (hin s hs)
  rcases hrun : Program.run (Linked.exec select) (sendAndRecieve pf code) s with ⟨e | b, s'⟩
  · trivial
  · rw [hrun] at hin'
    obtain ⟨c, r, answer, hanswered⟩ := answered_of_ok hpolite (hin s hs) hcode hrun
    exact hstep s s' c r answer hs hin' hanswered

theorem run_responseCode (s : Linked K σ) :
    Program.run (Linked.exec select) responseCode s =
      (.ok (ResponseCode.ofValue s.client.members.responsePacket.code), s) := rfl

theorem triple_responseCode :
    Triple (Linked.exec select) I responseCode
      (fun label s => I s ∧ label = ResponseCode.ofValue s.client.members.responsePacket.code)
      Thrown :=
  fun _ hs => ⟨hs, rfl⟩

theorem triple_readMembers {E : Fault → Linked K σ → Prop} :
    Triple (Linked.exec select) I Cpp.members (fun c s => I s ∧ c = s.client.members) E :=
  fun _ hs => ⟨hs, rfl⟩

/-- What every send of a request keeps holds behind the resends, and they tell whether
the last answer was a 1607. -/
theorem triple_resends (toDo : RequestCode)
    (h : Triple (Linked.exec select) I (sendAndRecieve pf toDo) (fun _ => I) Thrown) :
    Triple (Linked.exec select) I (resendIfServerError pf toDo)
      (fun ok s => I s ∧
        (ok = true ↔ s.client.members.responsePacket.code ≠ ResponseCode.generalErr.value))
      Thrown := by
  have hloop : ∀ rounds, Triple (Linked.exec select) I (errorResendLoop pf toDo rounds)
      (fun _ => I) Thrown := by
    intro rounds
    induction rounds with
    | zero => exact fun s hs => hs
    | succ rounds ih => exact h.bind fun _ => ih
  have hlabel : ∀ {s : Linked K σ} {label : Option ResponseCode},
      label = ResponseCode.ofValue s.client.members.responsePacket.code →
      (label = some .generalErr ↔
        s.client.members.responsePacket.code = ResponseCode.generalErr.value) := by
    intro s label heq
    rw [heq, ResponseCode.ofValue_eq_some, eq_comm]
  refine triple_responseCode.bind fun label => ?_
  split
  · next herror =>
    refine ((hloop 2).imp (fun s hs => hs.1) (fun _ _ hs => hs) fun _ _ hs => hs).bind fun _ =>
      triple_responseCode.bind fun last s hs => ⟨hs.1, ?_⟩
    rw [bne_iff_ne, ne_eq, hlabel hs.2]
  · next hnone =>
    intro s hs
    exact ⟨hs.1, fun _ hsame => hnone ((hlabel hs.2).mpr hsame), fun _ => rfl⟩

end Rules

/-! ## The parts of an upload -/

section Parts

variable {K : Type} {pf : Platform K} {env : Env} {crypto : Crypto} {meanwhile : Nat → World → World}
  {uid : Uid} {ti : TransferInfo} {name : Str} {file key : Bytes} {row : Option ClientRow}

/-- The client is at work with its keys exchanged. -/
structure Working (Safe : World → Prop) (uid : Uid) (ti : TransferInfo) (file key : Bytes)
    (row : Option ClientRow) (s : Linked K Amid) : Prop where
  atWork : AtWork Safe uid ti file s
  keyed : Keyed uid key row s

/-- The last 828 was answered: unless it was refused, the flag speaks of what is stored. -/
structure Delivered (env : Env) (Safe : World → Prop) (uid : Uid) (ti : TransferInfo)
    (name : Str) (file key : Bytes) (row : Option ClientRow) (s : Linked K Amid) : Prop
    extends Working Safe uid ti file key row s where
  code_eq : s.client.members.requestPacket.code = RequestCode.sendFile.value
  filename_eq : s.client.members.requestHandler.filename = ti.getFileName
  flagged : s.client.members.responsePacket.code ≠ ResponseCode.generalErr.value →
    s.client.members.crcValid = true →
    Backed env uid name (Faithful file key row) (fun _ => True) s.server.state.world
  agreed : s.client.members.responsePacket.code ≠ ResponseCode.generalErr.value →
    (∃ r, row = some r ∧ r.aesKey = key) → s.client.members.crcValid = true

/-- The file is there, under a name that the client has in hand. -/
structure Stored (env : Env) (Safe : World → Prop) (uid : Uid) (ti : TransferInfo)
    (name : Str) (file key : Bytes) (row : Option ClientRow) (s : Linked K Amid) : Prop
    extends Working Safe uid ti file key row s where
  filename_eq : s.client.members.requestHandler.filename = ti.getFileName
  backed : Backed env uid name (Faithful file key row) (fun _ => True) s.server.state.world

/-- The last request is no 900. -/
def Unconfirmed (s : Linked K Amid) : Prop :=
  s.client.members.requestPacket.code ≠ RequestCode.validCrc.value

/-- The 900 of the client was answered: the file is there, and listed as verified if the
answer is a 1604. -/
structure Acknowledged (env : Env) (Safe : World → Prop) (uid : Uid) (ti : TransferInfo)
    (name : Str) (file key : Bytes) (row : Option ClientRow) (s : Linked K Amid) : Prop
    extends Working Safe uid ti file key row s where
  filename_eq : s.client.members.requestHandler.filename = ti.getFileName
  backed : Backed env uid name (Faithful file key row) (fun frow =>
    s.client.members.responsePacket.code = ResponseCode.msgRecieved.value →
      frow.fileName = name → frow.verified = 1) s.server.state.world

theorem Acknowledged.stored {s : Linked K Amid}
    (h : Acknowledged env Safe uid ti name file key row s) :
    Stored env Safe uid ti name file key row s :=
  ⟨h.toWorking, h.filename_eq, h.backed.mono fun _ _ => trivial⟩

variable (hname : EndsIn ti name) (hspares : Sparing env crypto meanwhile Safe uid name)
  (hAES : ∀ k : Bytes, k.length = 32 →
    Inverts 16 (pf.aesEncryptBlock k) (crypto.aesDecryptBlock k)) (hw : 32 ≤ pf.longBits)

section Sending

include hname hspares hAES hw

/-- An 828, after which the flag is told by what it was. -/
theorem triple_deliver (flag : Bool) :
    Triple (Linked.exec (serveAmid env crypto meanwhile))
      (fun s => Working Safe uid ti file key row s ∧ s.client.members.crcValid = flag)
      (sendAndRecieve pf .sendFile)
      (fun _ s => Delivered env Safe uid ti name file key row s ∧
        (s.client.members.responsePacket.code = ResponseCode.generalErr.value →
          s.client.members.crcValid = flag)) Thrown := by
  refine triple_exchange (polite_serveAmid env crypto meanwhile) (by decide)
    (fun s hs => hs.1.atWork.inStep) fun s s' c r answer hs hin hanswered => ?_
  obtain ⟨hwork, hkeyed, huploaded⟩ :=
    hanswered.uploaded hname hspares hs.1.atWork hs.1.keyed hin hAES hw
  rcases huploaded.answered with ⟨hrefused, hflag⟩ | ⟨hstored, hbacked, hagreed⟩
  · exact ⟨⟨⟨hwork, hkeyed⟩, huploaded.code_eq, huploaded.filename_eq,
      fun hnot => absurd hrefused hnot, fun hnot => absurd hrefused hnot⟩,
      fun _ => hflag.trans hs.2⟩
  · refine ⟨⟨⟨hwork, hkeyed⟩, huploaded.code_eq, huploaded.filename_eq, fun _ => hbacked,
      fun _ => hagreed⟩, fun hrefused => ?_⟩
    rw [hstored] at hrefused
    exact absurd hrefused (by decide)

/-- `uploadFile` behind the key exchange, up to the check of the flag. -/
theorem triple_deliverAll :
    Triple (Linked.exec (serveAmid env crypto meanwhile)) (Working Safe uid ti file key row)
      (do
        let _ ← sendAndRecieve pf .sendFile
        resendIfServerError pf .sendFile)
      (fun ok s => if ok then Delivered env Safe uid ti name file key row s ∧
          s.client.members.responsePacket.code ≠ ResponseCode.generalErr.value
        else Unconfirmed s) Thrown := by
  have hsend : Triple (Linked.exec (serveAmid env crypto meanwhile))
      (Working Safe uid ti file key row) (sendAndRecieve pf .sendFile)
      (fun _ => Delivered env Safe uid ti name file key row) Thrown := by
    intro s hs
    have hdelivered := triple_deliver hname hspares hAES hw s.client.members.crcValid s ⟨hs, rfl⟩
    generalize Program.run (Linked.exec (serveAmid env crypto meanwhile))
      (sendAndRecieve pf .sendFile) s = result at hdelivered ⊢
    rcases result with ⟨e | b, s'⟩
    · trivial
    · exact hdelivered.1
  have hresend := triple_resends .sendFile
    (hsend.imp (fun s hs => Delivered.toWorking hs) (fun _ _ hs => hs) fun _ _ hs => hs)
  refine hsend.bind fun _ => hresend.imp (fun _ hs => hs) (fun ok s hs => ?_) fun _ _ hs => hs
  obtain ⟨hdelivered, hok⟩ := hs
  cases ok with
  | true => exact ⟨hdelivered, hok.mp rfl⟩
  | false =>
    show s.client.members.requestPacket.code ≠ RequestCode.validCrc.value
    rw [hdelivered.code_eq]
    decide

/-- `resendEncryptedMessage`: each round that is entered sends the file again. -/
theorem triple_resendLoop (rounds : Nat) :
    Triple (Linked.exec (serveAmid env crypto meanwhile))
      (fun s => Working Safe uid ti file key row s ∧
        (s.client.members.crcValid = true → Stored env Safe uid ti name file key row s))
      (resendLoop pf rounds)
      (fun _ s => Working Safe uid ti file key row s ∧
        (s.client.members.crcValid = true → Stored env Safe uid ti name file key row s)) Thrown := by
  induction rounds with
  | zero => exact fun s hs => hs
  | succ rounds ih =>
    refine triple_readMembers.bind fun c => ?_
    split
    · exact fun s hs => hs.1
    · next hflag =>
      -- the 901 leaves the flag as it is
      have hresend : Triple (Linked.exec (serveAmid env crypto meanwhile))
          (fun s => (Working Safe uid ti file key row s ∧ (s.client.members.crcValid = true →
            Stored env Safe uid ti name file key row s)) ∧ c = s.client.members)
          (sendAndRecieve pf .nValidCrc)
          (fun _ s => Working Safe uid ti file key row s ∧ s.client.members.crcValid = false)
          Thrown := by
        intro s hs
        obtain ⟨⟨hworking, -⟩, rfl⟩ := hs
        have hin := sendAndRecieve_inStep pf (polite_serveAmid env crypto meanwhile) .nValidCrc s
          hworking.atWork.inStep
        rcases hrun : Program.run (Linked.exec (serveAmid env crypto meanwhile))
          (sendAndRecieve pf .nValidCrc) s with ⟨e | b, s'⟩
        · trivial
        · rw [hrun] at hin
          obtain ⟨hwork, hkeyed, hkept⟩ :=
            resent_kept hspares hworking.atWork hworking.keyed hin hrun
          exact ⟨⟨hwork, hkeyed⟩, hkept.trans (Bool.not_eq_true _ ▸ hflag)⟩
      -- and the 828 may set it
      refine hresend.bind fun _ =>
        ((triple_deliver hname hspares hAES hw false).imp (fun _ hs => hs) (fun _ s hs => ?_)
          fun _ _ hs => hs).bind fun _ => ih
      obtain ⟨hdelivered, hrefused⟩ := hs
      refine ⟨hdelivered.toWorking, fun hset => ⟨hdelivered.toWorking, hdelivered.filename_eq,
        hdelivered.flagged (fun hlabel => ?_) hset⟩⟩
      rw [hrefused hlabel] at hset
      cases hset

/-- `VALID_CRC(_crcValid)`. -/
theorem triple_checkCrcValid :
    Triple (Linked.exec (serveAmid env crypto meanwhile))
      (fun s => Delivered env Safe uid ti name file key row s ∧
        s.client.members.responsePacket.code ≠ ResponseCode.generalErr.value)
      (checkCrcValid pf)
      (fun ok s => if ok then Stored env Safe uid ti name file key row s else Unconfirmed s)
      Thrown := by
  have hstored : ∀ {s : Linked K Amid}, Delivered env Safe uid ti name file key row s →
      s.client.members.responsePacket.code ≠ ResponseCode.generalErr.value →
      s.client.members.crcValid = true → Stored env Safe uid ti name file key row s :=
    fun hs hanswered hset => ⟨hs.toWorking, hs.filename_eq, hs.flagged hanswered hset⟩
  refine triple_readMembers.bind fun c => ?_
  split
  · next hset =>
    intro s hs
    exact hstored hs.1.1 hs.1.2 (hs.2 ▸ hset)
  · refine ((triple_resendLoop hname hspares hAES hw 2).imp
      (fun s hs => ⟨hs.1.1.toWorking, hstored hs.1.1 hs.1.2⟩) (fun _ _ hs => hs)
      fun _ _ hs => hs).bind fun _ => triple_readMembers.bind fun c' => ?_
    split
    · next hset =>
      intro s hs
      exact hs.1.2 (hs.2 ▸ hset)
    · -- a 902 is the last request
      have hexit : Triple (Linked.exec (serveAmid env crypto meanwhile))
          (fun s => (Working Safe uid ti file key row s ∧ (s.client.members.crcValid = true →
            Stored env Safe uid ti name file key row s)) ∧ c' = s.client.members)
          (sendAndRecieve pf .exitCrc) (fun _ => Unconfirmed) Thrown := by
        refine triple_exchange (polite_serveAmid env crypto meanwhile) (by decide)
          (fun s hs => hs.1.1.atWork.inStep) fun s s' c r answer hs hin hanswered => ?_
        obtain ⟨-, -, hcode⟩ := hanswered.atWork hspares hs.1.1.atWork hin (by decide) (by decide)
        rw [Unconfirmed, hcode]
        decide
      exact hexit.bind fun _ s hs => hs

omit hAES hw in
/-- `uploadFile` behind `VALID_CRC`. -/
theorem triple_confirmFile :
    Triple (Linked.exec (serveAmid env crypto meanwhile)) (Stored env Safe uid ti name file key row)
      (confirmFile pf) (fun _ => Acknowledged env Safe uid ti name file key row) Thrown := by
  have hconfirm : Triple (Linked.exec (serveAmid env crypto meanwhile))
      (Stored env Safe uid ti name file key row) (sendAndRecieve pf .validCrc)
      (fun _ => Acknowledged env Safe uid ti name file key row) Thrown := by
    refine triple_exchange (polite_serveAmid env crypto meanwhile) (by decide)
      (fun s hs => hs.atWork.inStep) fun s s' c r answer hs hin hanswered => ?_
    obtain ⟨hwork, hkeyed, hfilename, hbacked⟩ := hanswered.confirmed hname hspares hs.atWork
      hs.keyed hin hs.filename_eq hs.backed
    exact ⟨⟨hwork, hkeyed⟩, hfilename, hbacked⟩
  exact hconfirm.bind fun _ => (triple_resends .validCrc
    (hconfirm.imp (fun s hs => hs.stored) (fun _ _ hs => hs) fun _ _ hs => hs)).bind
      fun _ s hs => hs.1

end Sending

include hspares in
/-- The key exchange keeps who the client is. -/
theorem triple_exchangeKeys_atWork :
    Triple (Linked.exec (serveAmid env crypto meanwhile)) (AtWork Safe uid ti file)
      (exchangeKeys pf)
      (fun ok s => if ok then AtWork Safe uid ti file s ∧ True else Unconfirmed s) Thrown := by
  have hexchange : Triple (Linked.exec (serveAmid env crypto meanwhile)) (AtWork Safe uid ti file)
      (sendAndRecieve pf .sPublicKey) (fun _ s => AtWork Safe uid ti file s ∧ Unconfirmed s)
      Thrown := by
    refine triple_exchange (polite_serveAmid env crypto meanwhile) (by decide)
      (fun s hs => hs.inStep) fun s s' c r answer hs hin hanswered => ?_
    obtain ⟨hwork, -, hcode⟩ := hanswered.atWork hspares hs hin (by decide) (by decide)
    refine ⟨hwork, ?_⟩
    rw [Unconfirmed, hcode]
    decide
  refine triple_readMembers.bind fun c => ?_
  split
  · exact fun s hs => ⟨hs.1, trivial⟩
  · exact (hexchange.imp (fun s hs => hs.1) (fun _ _ hs => hs) fun _ _ hs => hs).bind fun _ =>
      (triple_resends .sPublicKey
        (hexchange.imp (fun s hs => hs.1) (fun _ _ hs => hs) fun _ _ hs => hs)).imp
        (fun _ hs => hs) (fun ok s hs => by
          cases ok with
          | true => exact ⟨hs.1.1, trivial⟩
          | false => exact hs.1.2) fun _ _ hs => hs

section Upload

variable {I : Linked K Amid → Prop} {R : Bytes → Option ClientRow → Prop}
  (hkeys : Triple (Linked.exec (serveAmid env crypto meanwhile)) I (exchangeKeys pf)
    (fun ok s => if ok then AtWork Safe uid ti file s ∧
        R s.client.members.requestHandler.eh.key
          (s.server.state.world.clients.find? (·.uuid = uid))
      else Unconfirmed s) Thrown)
include hname hspares hAES hw hkeys

/-- `uploadFile` up to `VALID_CRC`, with what holds of the keys when they are exchanged. -/
theorem triple_sendFile :
    Triple (Linked.exec (serveAmid env crypto meanwhile)) I (sendFile pf)
      (fun ok s => if ok then ∃ key row, R key row ∧
          Delivered env Safe uid ti name file key row s ∧
            s.client.members.responsePacket.code ≠ ResponseCode.generalErr.value
        else Unconfirmed s) Thrown := by
  refine hkeys.bind fun exchanged => ?_
  cases exchanged with
  | false => exact fun s hs => hs
  | true =>
    intro s hs
    rw [if_pos rfl]
    refine ((triple_deliverAll hname hspares hAES hw).imp (fun _ hs => hs) (fun ok t ht => ?_)
      fun _ _ hs => hs) s ⟨hs.1, ⟨rfl, rfl⟩⟩
    cases ok with
    | false => exact ht
    | true => exact ⟨_, _, hs.2, ht⟩

/-- The `try` of `uploadFile`. -/
theorem triple_uploadTry :
    Triple (Linked.exec (serveAmid env crypto meanwhile)) I (uploadTry pf)
      (fun _ s => Unconfirmed s ∨
        ∃ key row, R key row ∧ Acknowledged env Safe uid ti name file key row s) Thrown := by
  refine (triple_sendFile hname hspares hAES hw hkeys).bind fun delivered => ?_
  cases delivered with
  | false => exact fun s hs => .inl hs
  | true =>
    intro s hs
    obtain ⟨key, row, hR, hdelivered⟩ := hs
    have hrest : Triple (Linked.exec (serveAmid env crypto meanwhile))
        (fun s => Delivered env Safe uid ti name file key row s ∧
          s.client.members.responsePacket.code ≠ ResponseCode.generalErr.value)
        (do
          if ← checkCrcValid pf then
            confirmFile pf)
        (fun _ s => Unconfirmed s ∨
          ∃ key row, R key row ∧ Acknowledged env Safe uid ti name file key row s) Thrown := by
      refine (triple_checkCrcValid hname hspares hAES hw).bind fun stored => ?_
      cases stored with
      | false => exact fun s hs => .inl hs
      | true =>
        exact (triple_confirmFile hname hspares).imp (fun s hs => hs)
          (fun _ s hs => .inr ⟨key, row, hR, hs⟩) fun _ _ hs => hs
    exact hrest s hdelivered

/-- What `uploadFile` has brought about when it returns behind a 900. -/
theorem acknowledged_of_uploadFile {s s' : Linked K Amid} (hs : I s)
    (hrun : Program.run (Linked.exec (serveAmid env crypto meanwhile)) (uploadFile pf) s =
      (.ok .returned, s'))
    (hlast : s'.client.members.requestPacket.code = RequestCode.validCrc.value) :
    ∃ key row, R key row ∧ Acknowledged env Safe uid ti name file key row s' := by
  have htry := triple_uploadTry hname hspares hAES hw hkeys s hs
  rw [uploadFile, Cpp.catchException, Program.run_tryCatch, Program.run_bind] at hrun
  rcases hbody : Program.run (Linked.exec (serveAmid env crypto meanwhile)) (uploadTry pf) s with
    ⟨e | u, t⟩
  · rw [hbody] at hrun
    cases e <;> cases hrun
  · rw [hbody] at hrun htry
    cases hrun
    exact htry.resolve_left fun hother => hother hlast

end Upload

end Parts

/-! ## The whole upload -/

/-- **A confirmed upload is stored.** A connected client has called any operations and
calls `uploadFile`, which returns with a 900 as the last request. Then, however often
requests were refused and sent again, whatever failed at the server, and whatever other
clients requested in between: in the client's directory is a file of that name with the
checksum of the local file, and with its bytes if the client has the key in its row. If
the answer to the 900 was a 1604, the client is listed with a row that is marked, unless
it is the row of another file. -/
theorem confirmed_upload_stored {K : Type} {pf : Platform K} {env : Env} {crypto : Crypto}
    {others : Nat → List (Header × Bytes)} {operations : List Operation} {start : Process K}
    {room : Nat} {w : World} {name : Str} {file : Bytes} {s s' : Linked K Amid}
    (hs : s = Linked.callAll
      (serveAmid env crypto fun n w => handleAll env crypto w (others n)) pf operations
      (Linked.connect start room ⟨w, 0⟩))
    (hname : EndsIn s.client.members.requestHandler.transferInfo name) (hplain : Plain name)
    (hfile : s.client.folder.file s.client.members.requestHandler.transferInfo.path = some file)
    (hothers : ∀ n, ∀ j ∈ others n,
      OfAnother s.client.members.requestPacket.clientID j.1 j.2)
    (hsafe : SafeFor s.client.members.requestPacket.clientID s.server.state.world)
    (hAES : ∀ key : Bytes, key.length = 32 →
      Inverts 16 (pf.aesEncryptBlock key) (crypto.aesDecryptBlock key))
    (hw : 32 ≤ pf.longBits)
    (hrun : Program.run (Linked.exec
        (serveAmid env crypto fun n w => handleAll env crypto w (others n))) (uploadFile pf) s =
      (.ok .returned, s'))
    (hlast : s'.client.members.requestPacket.code = RequestCode.validCrc.value) :
    Backed env s.client.members.requestPacket.clientID name
      (Faithful file s'.client.members.requestHandler.eh.key
        (s'.server.state.world.clients.find?
          (·.uuid = s.client.members.requestPacket.clientID)))
      (fun frow => s'.client.members.responsePacket.code = ResponseCode.msgRecieved.value →
        frow.fileName = name → frow.verified = 1) s'.server.state.world := by
  have hin : InStep s := by
    rw [hs]
    exact inStep_callAll pf (polite_serveAmid env crypto _) operations start room ⟨w, 0⟩
  have hspares := @sparing_others env crypto _ name others hothers hplain
  obtain ⟨key, row, -, hdone⟩ := acknowledged_of_uploadFile hname hspares hAES hw
    (R := fun _ _ => True) (triple_exchangeKeys_atWork hspares) ⟨hin, hsafe, rfl, rfl, hfile⟩ hrun
    hlast
  rw [hdone.keyed.key_eq, hdone.keyed.row_eq]
  exact hdone.backed

/-- The client of `sender`, signed in. -/
def returningSender : Process Bytes :=
  { toyProcess [1] senderDisk [] with
    members := { (toyProcess [1] senderDisk []).members with
      requestHandler := sender
      requestPacket := emptyPacket
      registeredClient := true }
    folder := ⟨senderDisk, fun _ => true⟩ }

/-- A platform whose AES is that of the server of `toyCrypto`. -/
def swapPlatform : Platform Bytes := { toyPlatform with aesEncryptBlock := fun _ => swapBlock }

/-- The server knows a second client, `v`. -/
def sharedWorld : World :=
  ⟨⟨[senderRow, ⟨Uid.ofNat 2, ['v', '\x00'], [], [], List.replicate 32 0⟩], by decide⟩, .empty,
    .bare, 0⟩

/-- The client `v` uploads a file of the same name before the first request of `u`. -/
def rivalUploads (n : Nat) : List (Header × Bytes) :=
  if n = 0 then [uploadRequest (Uid.ofNat 2) [0x66]] else []

theorem rivalUploads_ofAnother {uid : Uid} (huid : Uid.ofNat 2 ≠ uid) (n : Nat)
    (j : Header × Bytes) (hj : j ∈ rivalUploads n) : OfAnother uid j.1 j.2 := by
  rw [rivalUploads] at hj
  split at hj
  swap
  · cases hj
  cases List.mem_singleton.mp hj
  have hname : uploadName (uploadRequest (Uid.ofNat 2) [0x66]).2 = some ['f'] :=
    uploadName_uploadRequest _ (by decide) (by decide) (by decide)
  refine ⟨⟨fun hcode => absurd hcode (by decide), fun _ name heq => ?_,
    fun hcode => absurd hcode (by decide)⟩, huid⟩
  cases hname.symm.trans heq
  decide

/-- What `uploadFile` of the returning client comes to, among the uploads of the other. -/
def returningUpload : Except Fault Upload × Linked Bytes Amid :=
  Program.run (Linked.exec (serveAmid (.calm Uid.ofNat) toyCrypto fun n w =>
      handleAll (.calm Uid.ofNat) toyCrypto w (rivalUploads n)))
    (uploadFile swapPlatform) (Linked.connect returningSender 100000 ⟨sharedWorld, 0⟩)

theorem returningUpload_returned : ∃ s', returningUpload = (.ok .returned, s') ∧
    s'.client.members.requestPacket.code = RequestCode.validCrc.value ∧
    ∃ packet folder, .sent packet folder ∈ s'.client.log := by
  have hends : (match returningUpload with
      | (.ok .returned, s') =>
        s'.client.members.requestPacket.code == RequestCode.validCrc.value &&
          s'.client.log.any Event.isSent
      | (.ok .exited, _) => false
      | (.error _, _) => false) = true := by decide +kernel
  rcases hrun : returningUpload with ⟨e | _ | _, s'⟩
  · rw [hrun] at hends
    cases hends
  · rw [hrun] at hends
    obtain ⟨hcode, hlog⟩ := (Bool.and_eq_true _ _).mp hends
    obtain ⟨event, hmem, hsent⟩ := List.any_eq_true.mp hlog
    refine ⟨s', rfl, beq_iff_eq.mp hcode, ?_⟩
    cases event with
    | sent packet folder => exact ⟨packet, folder, hmem⟩
    | started userName folder => cases hsent
    | received packet folder => cases hsent
    | returned value => cases hsent
  · rw [hrun] at hends
    cases hends

theorem sender_endsIn : EndsIn sender.transferInfo ['f'] :=
  ⟨by decide +kernel, by decide, by decide⟩

theorem sharedWorld_safe : SafeFor (Uid.ofNat 1) sharedWorld :=
  @safeFor_of_names _ _ ['u', '\x00'] (by decide) (by decide) (by decide)

theorem returningSender_confirmed_stored : ∃ s', returningUpload = (.ok .returned, s') ∧
    Backed (.calm Uid.ofNat) (Uid.ofNat 1) ['f']
      (Faithful [0x76, 0x31] s'.client.members.requestHandler.eh.key
        (s'.server.state.world.clients.find? (·.uuid = Uid.ofNat 1)))
      (fun frow => s'.client.members.responsePacket.code = ResponseCode.msgRecieved.value →
        frow.fileName = ['f'] → frow.verified = 1) s'.server.state.world := by
  obtain ⟨s', hrun, hlast, -⟩ := returningUpload_returned
  exact ⟨s', hrun, @confirmed_upload_stored Bytes swapPlatform (.calm Uid.ofNat) toyCrypto
    rivalUploads [] returningSender 100000 sharedWorld ['f'] [0x76, 0x31]
    (Linked.connect returningSender 100000 ⟨sharedWorld, 0⟩) s' rfl sender_endsIn (by decide) rfl
    (rivalUploads_ofAnother (by decide)) sharedWorld_safe (fun _ _ => swapBlock_inverts)
    (by decide) hrun hlast⟩

end FileTransfer.EndToEnd
