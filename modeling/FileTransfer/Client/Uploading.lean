import FileTransfer.Lib.History
import FileTransfer.Client.Exchange

/-!
# What an upload logs

The answers to the 828s of a log, the verdict of a 1603, and the stages of
`uploadFile` as triples over what is logged.
-/

namespace FileTransfer.Client

open FileTransfer.Effect FileTransfer.History FileTransfer.Server

variable {K : Type}

/-! ## Requests in a log -/

/-- Every request of the log is as it should be after what was logged before it. -/
def EachSent (Q : List Event → RequestPacket → Folder → Prop) : List Event → Prop :=
  EachAfter fun past event => ∀ packet folder, event = .sent packet folder → Q past packet folder

section EachSent

variable {Q : List Event → RequestPacket → Folder → Prop} {log : List Event}

theorem eachSent_nil : EachSent Q [] := eachAfter_nil

@[simp] theorem eachSent_sent {packet : RequestPacket} {folder : Folder} :
    EachSent Q (log ++ [.sent packet folder]) ↔ EachSent Q log ∧ Q log packet folder := by
  simp [EachSent]

@[simp] theorem eachSent_received {packet : ResponsePacket} {folder : Folder} :
    EachSent Q (log ++ [.received packet folder]) ↔ EachSent Q log := by
  simp [EachSent]

@[simp] theorem eachSent_started {userName : Bytes} {folder : Folder} :
    EachSent Q (log ++ [.started userName folder]) ↔ EachSent Q log := by
  simp [EachSent]

@[simp] theorem eachSent_returned {value : Bool} :
    EachSent Q (log ++ [.returned value]) ↔ EachSent Q log := by
  simp [EachSent]

/-- What the event says, if it is a request. -/
def Event.Sends (P : RequestPacket → Folder → Prop) : Event → Prop
  | .sent packet folder => P packet folder
  | _ => True

theorem eachSent_iff :
    EachSent Q log ↔ ∀ i : Fin log.length, (log.get i).Sends (Q (log.take i)) := by
  constructor
  · intro h i
    have hi : log = log.take i ++ log.get i :: log.drop (i + 1) := by simp
    have hi := h _ _ _ hi
    generalize log.get i = event at hi ⊢
    cases event with
    | sent packet folder => exact hi packet folder rfl
    | _ => trivial
  · rintro h past event rest rfl packet folder rfl
    have hi := h ⟨past.length, by simp⟩
    simpa [Event.Sends] using hi

instance (P : RequestPacket → Folder → Prop) [∀ packet folder, Decidable (P packet folder)]
    (event : Event) : Decidable (event.Sends P) :=
  match event with
  | .sent packet folder => inferInstanceAs (Decidable (P packet folder))
  | .started .. => inferInstanceAs (Decidable True)
  | .received .. => inferInstanceAs (Decidable True)
  | .returned _ => inferInstanceAs (Decidable True)

/-- The requests of a given log can be looked at one by one. -/
instance [∀ past packet folder, Decidable (Q past packet folder)] : Decidable (EachSent Q log) :=
  decidable_of_iff _ eachSent_iff.symm

/-- A condition on every request, and what it is for. -/
theorem EachSent.mp {P : List Event → RequestPacket → Folder → Prop}
    (h : EachSent (fun past packet folder => P past packet folder → Q past packet folder) log)
    (hP : EachSent P log) : EachSent Q log :=
  fun past event rest heq packet folder hevent =>
    h past event rest heq packet folder hevent (hP past event rest heq packet folder hevent)

/-- What a log says of a request that was sent at some point. -/
theorem EachSent.of_prefix {past : List Event} {packet : RequestPacket} {folder : Folder}
    (h : EachSent Q log) (hbefore : past ++ [.sent packet folder] <+: log) :
    Q past packet folder := by
  obtain ⟨rest, rfl⟩ := hbefore
  exact h past _ rest (by rw [List.append_assoc, List.singleton_append]) packet folder rfl

/-- One exchange keeps the log in order if its request is. -/
theorem EachSent.exchange {pf : Platform K} {code : RequestCode} {s s' : Process K}
    {r : Except Fault Bool} (hlog : EachSent Q s.log) (h : Exchange pf code s r s')
    (hQ : ∀ s₁, Loads code s (.ok true) s₁ → Q s.log s₁.members.requestPacket s₁.folder) :
    EachSent Q s'.log := by
  rcases h.logged with heq | ⟨s₁, hloads, heq | ⟨packet, heq⟩⟩
  · rwa [heq]
  · rw [heq, eachSent_sent]
    exact ⟨hlog, hQ s₁ hloads⟩
  · rw [heq, eachSent_received, eachSent_sent]
    exact ⟨hlog, hQ s₁ hloads⟩

end EachSent

theorem RequestCode.value_injective : Function.Injective RequestCode.value := by
  intro code code' h
  cases code <;> cases code' <;> first | rfl | exact absurd h (by decide)

/-! ## Uploads and their answers -/

/-- The response received right after each 828 of a log, if there is one. -/
def uploadAnswers : List Event → List (Option (ResponsePacket × Folder))
  | [] => []
  | .sent packet _ :: rest =>
    if packet.code = RequestCode.sendFile.value then
      (match rest with
        | .received response folder :: _ => some (response, folder)
        | _ => none) :: uploadAnswers rest
    else uploadAnswers rest
  | _ :: rest => uploadAnswers rest

theorem uploadAnswers_append (log : List Event) {tail : List Event}
    (htail : ∀ response folder rest, tail ≠ .received response folder :: rest) :
    uploadAnswers (log ++ tail) = uploadAnswers log ++ uploadAnswers tail := by
  induction log with
  | nil => rfl
  | cons event rest ih =>
    cases event with
    | sent packet folder =>
      simp only [List.cons_append, uploadAnswers, ih]
      split
      · rcases rest with _ | ⟨_ | _ | _ | _, _⟩
        · rcases tail with _ | ⟨_ | _ | _ | _, _⟩
          all_goals first | rfl | exact absurd rfl (htail _ _ _)
        all_goals rfl
      · rfl
    | _ => exact ih

theorem length_uploadAnswers_append (log tail : List Event) :
    (uploadAnswers (log ++ tail)).length =
      (uploadAnswers log).length + (uploadAnswers tail).length := by
  induction log with
  | nil => simp [uploadAnswers]
  | cons event rest ih =>
    cases event with
    | sent packet folder =>
      simp only [List.cons_append, uploadAnswers]
      split <;> simp [ih, Nat.add_right_comm]
    | _ => exact ih

/-- An exchange adds its answer, if it is one of a file. -/
theorem uploadAnswers_exchange (log : List Event) (packet : RequestPacket) (folder folder' : Folder)
    (response : ResponsePacket) :
    uploadAnswers (log ++ [Event.sent packet folder] ++ [Event.received response folder']) =
      uploadAnswers log ++
        if packet.code = RequestCode.sendFile.value then [some (response, folder')] else [] := by
  rw [List.append_assoc, uploadAnswers_append log (by simp)]
  simp only [List.singleton_append, uploadAnswers]

theorem uploadAnswers_sent (log : List Event) (packet : RequestPacket) (folder : Folder) :
    uploadAnswers (log ++ [.sent packet folder]) =
      uploadAnswers log ++ if packet.code = RequestCode.sendFile.value then [none] else [] := by
  rw [uploadAnswers_append log (by simp)]
  rfl

/-- Other requests leave the answers of the uploads alone. -/
theorem Exchange.uploadAnswers_eq {pf : Platform K} {code : RequestCode} {s s' : Process K}
    {r : Except Fault Bool} (h : Exchange pf code s r s') (hcode : code ≠ .sendFile) :
    uploadAnswers s'.log = uploadAnswers s.log := by
  have hother : code.value ≠ RequestCode.sendFile.value :=
    fun heq => hcode (RequestCode.value_injective heq)
  rcases h.logged with heq | ⟨s₁, hloads, heq | ⟨packet, heq⟩⟩
  · rw [heq]
  · rw [heq, uploadAnswers_sent, hloads.code_eq, if_neg hother, List.append_nil]
  · rw [heq, uploadAnswers_exchange, hloads.code_eq, if_neg hother, List.append_nil]

/-- **The verdict of a response** on the local file: it is a 1603, and the
checksum it carries is that of the file, or is not. -/
structure Verdict (w : Nat) (ti : TransferInfo) (response : ResponsePacket) (folder : Folder)
    (crcValid : Bool) : Prop where
  code_eq : ResponseCode.ofValue response.code = some .validCrcFile
  crc : ∃ file crcClient crcServer, folder.file ti.path = some file ∧
    memcrc w file = some crcClient ∧ crcOfPayload response.payload = some crcServer ∧
    crcValid = (crcClient == BitVec.ofNat w (fromLE crcServer))

/-- An answered 828: what it adds to the answers, and the flag it leaves. -/
theorem Exchange.upload {pf : Platform K} {s s' : Process K} {b : Bool}
    (h : Exchange pf .sendFile s (.ok b) s') :
    ∃ folder, uploadAnswers s'.log =
        uploadAnswers s.log ++ [some (s'.members.responsePacket, folder)] ∧
      nameSize ≤ s'.members.requestHandler.filename.length ∧
      (Verdict pf.longBits s'.members.requestHandler.transferInfo s'.members.responsePacket
          folder s'.members.crcValid ∨
        (ResponseCode.ofValue s'.members.responsePacket.code ≠ some .validCrcFile ∧
          s'.members.crcValid = s.members.crcValid)) := by
  obtain ⟨p, f, g, hlog, hcode, hupload, hflag⟩ := h.answered (by decide)
  obtain ⟨hname, hfile⟩ := hupload rfl
  refine ⟨g, ?_, hname, ?_⟩
  · rw [hlog, uploadAnswers_exchange, if_pos hcode]
  · refine hflag.imp_left fun ⟨hvalid, hsum⟩ => ⟨hvalid, ?_⟩
    obtain ⟨file, hfile⟩ := Option.isSome_iff_exists.mp hfile
    obtain ⟨-, crcClient, crc, hclient, hcrc, heq⟩ := checkSum_ok hsum
    rw [hfile] at hclient
    exact ⟨file, crcClient, crc, hfile, hclient, hcrc, heq⟩

/-! ## Stages -/

section Stages

open Program (Triple Outcome)

variable {pf : Platform K} {toDo : RequestCode} {I J : Process K → Prop}
  {E : Fault → Process K → Prop}

theorem triple_sendAndRecieve (code : RequestCode)
    (hok : ∀ s s' b, I s → Exchange pf code s (.ok b) s' → J s')
    (herror : ∀ s s' e, I s → Exchange pf code s (.error e) s' → E e s') :
    Triple exec I (sendAndRecieve pf code) (fun _ => J) E := by
  intro s hs
  have hexchange := sendAndRecieve_exchange pf code s
  generalize Program.run exec (sendAndRecieve pf code) s = result at hexchange ⊢
  rcases result with ⟨e | b, s'⟩
  · exact herror s s' e hs hexchange
  · exact hok s s' b hs hexchange

/-- Reading a member tells its value and changes nothing. -/
theorem triple_members :
    Triple exec I Cpp.members (fun c s => I s ∧ c = s.members) E :=
  fun _ hs => ⟨hs, rfl⟩

/-- Resending counts up from `k`. -/
theorem triple_errorResendLoop {I : Nat → Process K → Prop} (rounds k : Nat)
    (h : ∀ i, k ≤ i → i < k + rounds →
      Triple exec (I i) (sendAndRecieve pf toDo) (fun _ => I (i + 1)) E) :
    Triple exec (I k) (errorResendLoop pf toDo rounds) (fun _ => I (k + rounds)) E := by
  induction rounds generalizing k with
  | zero => exact fun s hs => hs
  | succ rounds ih =>
    have hrest := ih (k + 1) fun i hk hi => h i (by omega) (by omega)
    rw [Nat.add_right_comm, Nat.add_assoc] at hrest
    exact (h k (Nat.le_refl k) (by omega)).bind fun _ => hrest

theorem triple_resendIfServerError {I : Nat → Process K → Prop} (k : Nat)
    (h : ∀ i, k ≤ i → i < k + 2 →
      Triple exec (I i) (sendAndRecieve pf toDo) (fun _ => I (i + 1)) E) :
    Triple exec (I k) (resendIfServerError pf toDo) (fun _ s => I k s ∨ I (k + 2) s) E := by
  have hcode : Triple exec (I k) responseCode (fun _ => I k) E := fun s hs => hs
  refine hcode.bind fun label => ?_
  split
  · exact (triple_errorResendLoop 2 k h).bind fun _ s hs => Or.inr hs
  · exact fun s hs => Or.inl hs

/-- What every send of the request keeps, resending it keeps. -/
theorem triple_resendIfServerError_const
    (h : Triple exec I (sendAndRecieve pf toDo) (fun _ => I) E) :
    Triple exec I (resendIfServerError pf toDo) (fun _ => I) E :=
  (triple_resendIfServerError (I := fun _ => I) 0 fun _ _ _ => h).imp (fun _ hs => hs)
    (fun _ _ hs => hs.elim id id) fun _ _ hs => hs

theorem triple_exchangeKeys
    (h : Triple exec I (sendAndRecieve pf .sPublicKey) (fun _ => I) E) :
    Triple exec I (exchangeKeys pf) (fun _ => I) E := by
  refine triple_members.bind fun c => ?_
  split
  · exact fun s hs => hs.1
  · exact (h.bind fun _ => triple_resendIfServerError_const h).imp (fun s hs => hs.1)
      (fun _ _ hs => hs) fun _ _ hs => hs

/-- The stage up to `VALID_CRC`: one 828, and two more after a server error. -/
theorem triple_sendFile {L : Nat → Process K → Prop}
    (hkeys : Triple exec I (sendAndRecieve pf .sPublicKey) (fun _ => I) E)
    (hfirst : Triple exec I (sendAndRecieve pf .sendFile) (fun _ => L 1) E)
    (hagain : ∀ i, 1 ≤ i → i < 3 →
      Triple exec (L i) (sendAndRecieve pf .sendFile) (fun _ => L (i + 1)) E) :
    Triple exec I (sendFile pf)
      (fun goOn s => I s ∧ goOn = false ∨ L 1 s ∨ L 3 s) E := by
  refine (triple_exchangeKeys hkeys).bind fun go => ?_
  split
  · exact hfirst.bind fun _ => (triple_resendIfServerError 1 hagain).imp (fun _ hs => hs)
      (fun _ s hs => Or.inr hs) fun _ _ hs => hs
  · exact fun s hs => Or.inl ⟨hs, rfl⟩

/-- The CRC loop: a 901 leads from `L` to `M`, an 828 back to the next `L`, as long
as the flag is not set. -/
theorem triple_resendLoop {L M : Nat → Process K → Prop} (rounds k : Nat)
    (hagain : ∀ i, k ≤ i → i < k + rounds →
      Triple exec (fun s => L i s ∧ s.members.crcValid = false)
        (sendAndRecieve pf .nValidCrc) (fun _ => M i) E)
    (hfile : ∀ i, k ≤ i → i < k + rounds →
      Triple exec (M i) (sendAndRecieve pf .sendFile) (fun _ => L (i + 1)) E) :
    Triple exec (L k) (resendLoop pf rounds)
      (fun _ s => ∃ i, L i s ∧ i ≤ k + rounds ∧ (s.members.crcValid = false → i = k + rounds))
      E := by
  induction rounds generalizing k with
  | zero => exact fun s hs => ⟨k, hs, Nat.le_refl _, fun _ => rfl⟩
  | succ rounds ih =>
    refine triple_members.bind fun c => ?_
    split
    · -- the flag ends the loop after `k` rounds
      next hvalid =>
      rintro s ⟨hs, rfl⟩
      exact ⟨k, hs, by omega, fun hinvalid => absurd (hvalid.symm.trans hinvalid) (by decide)⟩
    · next hinvalid =>
      have hrest := ih (k + 1) (fun i hk hi => hagain i (by omega) (by omega))
        fun i hk hi => hfile i (by omega) (by omega)
      rw [Nat.add_right_comm, Nat.add_assoc] at hrest
      refine Triple.bind ((hagain k (Nat.le_refl k) (by omega)).imp ?_ (fun _ _ hs => hs)
        fun _ _ hs => hs) fun _ => (hfile k (Nat.le_refl k) (by omega)).bind fun _ => hrest
      rintro s ⟨hs, rfl⟩
      exact ⟨hs, Bool.not_eq_true _ ▸ hinvalid⟩

/-- **What every request of an upload keeps, the upload keeps.** -/
theorem triple_uploadTry (h : ∀ code, code ≠ .register → code ≠ .reconnect →
    Triple exec I (sendAndRecieve pf code) (fun _ => I) E) :
    Triple exec I (uploadTry pf) (fun _ => I) E := by
  have hloop : Triple exec I (resendLoop pf 2) (fun _ => I) E :=
    (triple_resendLoop (L := fun _ => I) (M := fun _ => I) 2 0
      (fun _ _ _ => (h .nValidCrc nofun nofun).imp (fun _ hs => hs.1) (fun _ _ hs => hs)
        fun _ _ hs => hs) fun _ _ _ => h .sendFile nofun nofun).imp (fun _ hs => hs)
      (fun _ _ hs => hs.elim fun _ hs => hs.1) fun _ _ hs => hs
  have hmembers : Triple exec I Cpp.members (fun _ => I) E := fun s hs => hs
  have hsend : Triple exec I (sendFile pf) (fun _ => I) E :=
    (triple_exchangeKeys (h .sPublicKey nofun nofun)).bind fun go => by
      split
      · exact (h .sendFile nofun nofun).bind fun _ =>
          triple_resendIfServerError_const (h .sendFile nofun nofun)
      · exact fun s hs => hs
  have hresend : Triple exec I (resendEncryptedMessage pf) (fun _ => I) E :=
    hloop.bind fun _ => hmembers.bind fun c => by
      split
      · exact fun s hs => hs
      · exact (h .exitCrc nofun nofun).bind fun _ s hs => hs
  have hcheck : Triple exec I (checkCrcValid pf) (fun _ => I) E :=
    hmembers.bind fun c => by
      split
      · exact fun s hs => hs
      · exact hresend
  have hconfirm : Triple exec I (confirmFile pf) (fun _ => I) E :=
    (h .validCrc nofun nofun).bind fun _ =>
      (triple_resendIfServerError_const (h .validCrc nofun nofun)).bind fun _ s hs => hs
  refine hsend.bind fun goOn => ?_
  split
  · refine hcheck.bind fun valid => ?_
    split
    · exact hconfirm
    · exact fun s hs => hs
  · exact fun s hs => hs

end Stages

/-! ## A call of `uploadFile` -/

/-- `uploadFile` logs what its stages log. -/
theorem events_uploadFile (pf : Platform K) (s : Process K) :
    events (uploadFile pf) s = (Program.run exec (sendFile pf >>= fun goOn =>
      if goOn then (do if ← checkCrcValid pf then confirmFile pf) else pure ())
      { s with log := [] }).2.log := by
  have htry : uploadTry pf = sendFile pf >>= fun goOn =>
      if goOn then (do if ← checkCrcValid pf then confirmFile pf) else pure () := rfl
  rw [events, uploadFile, Cpp.run_catchException, Program.run_bind, htry]
  generalize Program.run exec _ { s with log := [] } = result
  rcases result with ⟨e | _, s'⟩ <;> rfl

/-- What a call logs and where it reaches `VALID_CRC` do not depend on the log
before it. -/
theorem run_sendFile_behind (pf : Platform K) (s : Process K) :
    Program.run exec (sendFile pf) s =
      ((Program.run exec (sendFile pf) { s with log := [] }).1,
        (Program.run exec (sendFile pf) { s with log := [] }).2.behind s.log) := by
  rw [← run_behind]
  simp [Process.behind]

theorem run_checkCrcValid_true (pf : Platform K) {c : Process K}
    (hvalid : c.members.crcValid = true) :
    Program.run exec (checkCrcValid pf) c = (.ok true, c) := by
  simp [checkCrcValid, hvalid]

theorem run_checkCrcValid_false (pf : Platform K) {c : Process K}
    (hinvalid : c.members.crcValid = false) :
    Program.run exec (checkCrcValid pf) c = Program.run exec (resendEncryptedMessage pf) c := by
  simp [checkCrcValid, hinvalid]

/-! ## A client to try things on -/

/-- A public key is the private one with a mark in front; a ciphertext is the
message behind the key that decrypts it. The block cipher does nothing. -/
def toyPlatform : Platform Bytes where
  rsa :=
    { derPrivate := fun privateKey => privateKey
      derPublic := fun privateKey => 0x50 :: privateKey
      base64Encode := fun data => data
      base64Decode := fun data => data
      berDecode := some
      oaepDecrypt := fun privateKey cipher =>
        if privateKey <+: cipher then some (cipher.drop privateKey.length) else none }
  aesEncryptBlock := fun _ block => block
  longBits := 32

/-- The memory a client is constructed in. -/
def uninitialized : Members Bytes where
  requestHandler := ⟨[], ⟨List.replicate 32 0xcc, rfl⟩, ⟨[]⟩⟩
  publicKey := []
  userName := []
  privateKey := []
  requestPacket := ⟨⟨List.replicate 16 0xcc, rfl⟩, 0, 0, 0, []⟩
  responsePacket := ⟨0, 0, 0, []⟩
  crcValid := false
  registeredClient := false

/-- A response on the wire. -/
def responseFrame (code : ResponseCode) (payload : Bytes) : Bytes :=
  toLE 1 3 ++ toLE 2 code.value.toNat ++ toLE 4 payload.length ++ payload

/-- A client of the user `u` that has just been constructed, with the file `f` to
send; every file opens and the connection holds. -/
def toyProcess (privateKey : Bytes) (file : Bytes → Option Bytes) (incoming : Bytes) :
    Process Bytes where
  members := construct toyPlatform privateKey ⟨[0x66]⟩ [0x75] uninitialized
  connection := ⟨incoming, [], 10000, false⟩
  folder := ⟨fun name => if name = [0x66] then some [0x76] else file name, fun _ => true⟩
  log := []
  running := true

/-- The 1602 and 1605 that the server sends a holder of the private key. -/
def toyKeyFrame (code : ResponseCode) (privateKey : Bytes) : Bytes :=
  responseFrame code (List.replicate 16 1 ++ privateKey ++ List.replicate 32 7)

end FileTransfer.Client
