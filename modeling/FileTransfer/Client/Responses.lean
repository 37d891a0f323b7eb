import FileTransfer.Client.CutOff

/-!
# The responses to a call

What the server will send is in the stream before the client asks for any of it. How
`uploadFile` comes to `VALID_CRC` is decided by the responses in the stream, the flag
and the files at the start, and by which exchanges go through: `run_sendFile_iff`
says how, in terms of these alone.
-/

namespace FileTransfer.Client

open FileTransfer.Effect

variable {K : Type}

/-! ## The responses in a stream -/

/-- The response that a stream begins with, and what comes behind it. -/
def nextResponse (incoming : Bytes) : Option (ResponsePacket × Bytes) :=
  match ConnectionHandler.setRespHeaderBinaryData ⟨0, 0, 0, []⟩
    (incoming.take fixedRespHeaderSize) with
  | none => none
  | some packet =>
    let behind := incoming.drop fixedRespHeaderSize
    if packet.payloadSize.toNat ≤ behind.length then
      some ({ packet with payload := behind.take packet.payloadSize.toNat },
        behind.drop packet.payloadSize.toNat)
    else none

theorem nextResponse_shorter {incoming rest : Bytes} {packet : ResponsePacket}
    (h : nextResponse incoming = some (packet, rest)) : rest.length < incoming.length := by
  rw [nextResponse] at h
  split at h
  · cases h
  · next hheader =>
    have hlong : 0 < incoming.length := by
      by_contra hempty
      obtain rfl : incoming = [] := List.eq_nil_of_length_eq_zero (by omega)
      cases hheader
    have hsize : 0 < fixedRespHeaderSize := by decide
    dsimp only at h
    split at h
    · cases h
      simp only [List.length_drop]
      omega
    · cases h

/-- All responses in a stream. -/
def responses (incoming : Bytes) : List ResponsePacket :=
  match _h : nextResponse incoming with
  | none => []
  | some (packet, rest) => packet :: responses rest
termination_by incoming.length
decreasing_by exact nextResponse_shorter _h

theorem responses_of_next {incoming rest : Bytes} {packet : ResponsePacket}
    (h : nextResponse incoming = some (packet, rest)) :
    responses incoming = packet :: responses rest := by
  rw [responses]
  split
  · next hnone => cases h.symm.trans hnone
  · next hsome =>
    cases h.symm.trans hsome
    rfl

/-- The header does not depend on what the packet held before. -/
theorem setRespHeaderBinaryData_blank (packet : ResponsePacket) (header : Bytes) :
    ConnectionHandler.setRespHeaderBinaryData ⟨0, 0, 0, []⟩ header =
      (ConnectionHandler.setRespHeaderBinaryData packet header).map
        fun filled => { filled with payload := [] } := by
  simp only [ConnectionHandler.setRespHeaderBinaryData]
  cases peek header 0 1 with
  | none => rfl
  | some version =>
    cases peek header 1 2 with
    | none => rfl
    | some code =>
      cases peek header 3 4 with
      | none => rfl
      | some payloadSize => rfl

/-- **What `receiveData` takes from the stream** is its first response. -/
theorem nextResponse_of_receiveData {packet packet' : ResponsePacket}
    {ch ch' : ConnectionHandler}
    (h : ConnectionHandler.receiveData packet ch = (.ok true, packet', ch')) :
    nextResponse ch.incoming = some (packet', ch'.incoming) := by
  rw [ConnectionHandler.receiveData] at h
  split at h
  · cases h
  next hlength =>
  split at h
  · cases h
  next filled hfilled =>
  have hheader : (ch.read fixedRespHeaderSize).1 = ch.incoming.take fixedRespHeaderSize := rfl
  have hbehind : (ch.read fixedRespHeaderSize).2.incoming =
      ch.incoming.drop fixedRespHeaderSize := rfl
  have hblank := setRespHeaderBinaryData_blank packet (ch.incoming.take fixedRespHeaderSize)
  rw [← hheader, hfilled] at hblank
  simp only [nextResponse, ← hheader, hblank, Option.map_some]
  rw [ConnectionHandler.receiveInChunks, Nat.min_comm] at h
  by_cases henough : filled.payloadSize.toNat ≤ (ch.incoming.drop fixedRespHeaderSize).length
  · -- the loop reads the payload and stops behind it
    have hsplit := (List.take_append_drop filled.payloadSize.toNat
      (ch.incoming.drop fixedRespHeaderSize)).symm
    have herror : (ch.read fixedRespHeaderSize).2.error = false := by
      refine decide_eq_false fun hshort => hlength ?_
      rw [hheader, List.length_take] at *
      omega
    have hloop := @receiveLoop_append _ _ { filled with payload := [] } _
      (hbehind.trans hsplit) herror
    rw [List.length_take_of_le henough, h] at hloop
    cases hloop
    rw [if_pos henough]
    rfl
  · have hcut := @receiveLoop_cut filled.payloadSize.toNat { filled with payload := [] }
      (ch.read fixedRespHeaderSize).2 (by rw [hbehind]; omega)
    rw [h] at hcut
    cases hcut

/-! ## What the responses do -/

section Hearing

variable (pf : Platform K) (s : Process K)

/-- What a response makes of the flag and the files, in a call from `s`: a 1603 sets the
flag by the checksum in it, a 1600 writes the files of the client. -/
def hear : Bool × (Bytes → Option Bytes) → ResponsePacket → Bool × (Bytes → Option Bytes)
  | (flag, files), packet =>
    if ResponseCode.ofValue packet.code = some .validCrcFile then
      (match checkSum pf.longBits s.members.requestHandler.transferInfo files packet.payload with
        | .ok result => result.2
        | .error _ => flag, files)
    else if ResponseCode.ofValue packet.code = some .regSuccessful then
      (flag, s.withIdentity pf.rsa packet.payload)
    else (flag, files)

/-- Other responses change neither. -/
theorem hear_other {x : Bool × (Bytes → Option Bytes)} {packet : ResponsePacket}
    {label : ResponseCode} (hcode : ResponseCode.ofValue packet.code = some label)
    (hnew : label ≠ .regSuccessful) (hcrc : label ≠ .validCrcFile) : hear pf s x packet = x := by
  simp only [hear, hcode, Option.some.injEq, if_neg hcrc, if_neg hnew]

/-- The flag behind the first `n` responses. -/
def flagAfter (n : Nat) : Bool :=
  (((responses s.connection.incoming).take n).foldl (hear pf s)
    (s.members.crcValid, s.folder.file)).1

/-- `t` is reached from `s` by exchanges that went through, and these are the responses
to them. -/
structure Heard (answers : List ResponsePacket) (t : Process K) : Prop where
  stream : responses s.connection.incoming = answers ++ responses t.connection.incoming
  state : answers.foldl (hear pf s) (s.members.crcValid, s.folder.file) =
    (t.members.crcValid, t.folder.file)
  last : ∀ packet, answers.getLast? = some packet → t.members.responsePacket = packet
  transferInfo_eq :
    t.members.requestHandler.transferInfo = s.members.requestHandler.transferInfo
  userName_eq : t.members.userName = s.members.userName
  /-- as long as there is no `key.priv`, nothing has been written or loaded -/
  keyless : t.folder.file keyPriv = none →
    t.folder.file = s.folder.file ∧ t.members.privateKey = s.members.privateKey

variable {pf s} {answers : List ResponsePacket} {t t' : Process K} {code : RequestCode} {b : Bool}

theorem Heard.start (pf : Platform K) (s : Process K) : Heard pf s [] s where
  stream := rfl
  state := rfl
  last := fun _ h => by cases h
  transferInfo_eq := rfl
  userName_eq := rfl
  keyless := fun _ => ⟨rfl, rfl⟩

/-- The process when the response to an exchange has come in: the packets and the file
name have changed since it began. -/
structure Told (t t₁ : Process K) (packet : ResponsePacket) : Prop where
  next : nextResponse t.connection.incoming = some (packet, t₁.connection.incoming)
  members : ∃ filename request, t₁.members = { t.members with
    requestHandler := { t.members.requestHandler with filename := filename }
    requestPacket := request
    responsePacket := packet }
  files : t₁.folder.file = t.folder.file

/-- An exchange that goes through has built its request and sent all of it. -/
theorem sendAndRecieve_sent (h : Program.run exec (sendAndRecieve pf code) t = (.ok b, t')) :
    ∃ s₁ connection, Loads code t (.ok true) s₁ ∧
      connection.incoming = t.connection.incoming ∧
      Program.run exec (if code = .nValidCrc then pure true else do
        throwIfNot (← Cpp.receiveData)
        throwIfNot (← responseSelector pf.rsa pf.longBits)
        pure true) (s₁.sends connection) = (.ok b, t') := by
  rw [sendAndRecieve, Program.run_bind] at h
  have hloads := requestSelector_loads pf.aesEncryptBlock code t
  generalize Program.run exec (requestSelector pf.aesEncryptBlock code) t = loaded at hloads h
  rcases loaded with ⟨e | _ | _, s₁⟩
  · cases h
  · cases h
  simp only [run_throwIfNot_bind, if_true] at h
  rw [Program.run_bind, Cpp.run_sendData] at h
  have hwrites := writes_sendData s₁.members.requestPacket s₁.connection
  generalize ConnectionHandler.sendData s₁.members.requestPacket s₁.connection = sent
    at hwrites h
  rcases sent with ⟨e | _ | _, connection⟩
  · cases h
  · cases h
  simp only [run_throwIfNot_bind, if_true] at h
  refine ⟨s₁, connection, hloads, ?_, h⟩
  cases hloads <;> exact hwrites.2

/-- An exchange that goes through takes the next response from the stream, and reacts
to it. -/
theorem sendAndRecieve_told (hcode : code ≠ .nValidCrc)
    (h : Program.run exec (sendAndRecieve pf code) t = (.ok b, t')) :
    ∃ packet t₁, Told t t₁ packet ∧ Reacts pf t₁ (.ok true) t' := by
  obtain ⟨s₁, connection, hloads, hincoming, h⟩ := sendAndRecieve_sent h
  rw [if_neg hcode, Program.run_bind, Cpp.run_receiveData, exec] at h
  generalize hreceived : ConnectionHandler.receiveData (s₁.sends connection).members.responsePacket
    (s₁.sends connection).connection = received at h
  rcases received with ⟨e | _ | _, packet, connection'⟩
  · cases h
  · cases h
  have hnext := nextResponse_of_receiveData hreceived
  simp only [run_throwIfNot_bind, if_true] at h
  have hreacts := responseSelector_reacts pf ((s₁.sends connection).receives packet connection')
  rw [Program.run_bind] at h
  generalize Program.run exec (responseSelector pf.rsa pf.longBits)
    ((s₁.sends connection).receives packet connection') = reacted at hreacts h
  rcases reacted with ⟨e | _ | _, s'⟩
  · cases h
  · cases h
  obtain rfl : s' = t' := (Prod.mk.inj h).2
  refine ⟨packet, _, ⟨hincoming ▸ hnext, ?_, ?_⟩, hreacts⟩
  · cases hloads with
    | built _ => exact ⟨_, _, rfl⟩
    | unbuilt hnot => exact absurd rfl hnot
  · cases hloads <;> rfl

/-- What the selector leaves is what the response makes of the flag and the files. -/
theorem Reacts.hears {t₁ : Process K} (h : Reacts pf t₁ (.ok true) t')
    (hti : t₁.members.requestHandler.transferInfo = s.members.requestHandler.transferInfo)
    (huser : t₁.members.userName = s.members.userName)
    (hkeyless : t₁.folder.file keyPriv = none →
      t₁.folder.file = s.folder.file ∧ t₁.members.privateKey = s.members.privateKey) :
    hear pf s (t₁.members.crcValid, t₁.folder.file) t₁.members.responsePacket =
        (t'.members.crcValid, t'.folder.file) ∧
      t'.connection = t₁.connection ∧ t'.members.userName = t₁.members.userName ∧
      (t'.folder.file keyPriv = none →
        t'.folder.file = s.folder.file ∧ t'.members.privateKey = s.members.privateKey) := by
  cases h with
  | noted hcode hnew hcrc => exact ⟨hear_other pf s hcode hnew hcrc, rfl, rfl, hkeyless⟩
  | unlocked hcode hnew hcrc hkey =>
    refine ⟨hear_other pf s hcode hnew hcrc, rfl, rfl, fun hnone => ?_⟩
    rcases hkey with rfl | ⟨key, hthere, -⟩
    · exact hkeyless hnone
    · cases hnone.symm.trans hthere
  | created hcode hkey hinfo =>
    obtain ⟨hfiles, hprivate⟩ := hkeyless hkey
    have hcrc : ResponseCode.ofValue t₁.members.responsePacket.code ≠ some .validCrcFile := by
      rw [hcode]
      decide
    have hsame : t₁.withIdentity pf.rsa t₁.members.responsePacket.payload =
        s.withIdentity pf.rsa t₁.members.responsePacket.payload := by
      simp only [Process.withIdentity, Process.withKey, hfiles, hprivate, huser]
    refine ⟨by rw [hear, if_neg hcrc, if_pos hcode, hsame], rfl, rfl, fun hnone => ?_⟩
    have hthere := Process.withIdentity_keyPriv pf.rsa t₁ t₁.members.responsePacket.payload
    cases hthere.symm.trans hnone
  | compared hcode hsum =>
    refine ⟨?_, rfl, rfl, hkeyless⟩
    rw [hear, if_pos hcode, ← hti, hsum]

/-- **One exchange hears one response.** -/
theorem Heard.answered (hs : Heard pf s answers t) (hcode : code ≠ .nValidCrc)
    (h : Program.run exec (sendAndRecieve pf code) t = (.ok b, t')) :
    Heard pf s (answers ++ [t'.members.responsePacket]) t' := by
  obtain ⟨packet, t₁, htold, hreacts⟩ := sendAndRecieve_told hcode h
  obtain ⟨filename, request, hmembers⟩ := htold.members
  have hpacket : t'.members.responsePacket = packet := by
    rw [hreacts.responsePacket_eq, hmembers]
  have hti : t₁.members.requestHandler.transferInfo =
      s.members.requestHandler.transferInfo := by rw [hmembers, ← hs.transferInfo_eq]
  have huser : t₁.members.userName = s.members.userName := by rw [hmembers, ← hs.userName_eq]
  have hkeyless : t₁.folder.file keyPriv = none →
      t₁.folder.file = s.folder.file ∧ t₁.members.privateKey = s.members.privateKey := by
    rw [hmembers, htold.files]
    exact hs.keyless
  obtain ⟨hhear, hconnection, huser', hkeyless'⟩ := hreacts.hears hti huser hkeyless
  constructor
  · rw [hs.stream, responses_of_next htold.next, hpacket, hconnection, List.append_assoc]
    rfl
  · have hbefore : (t₁.members.crcValid, t₁.folder.file) =
        (t.members.crcValid, t.folder.file) := by rw [hmembers, htold.files]
    rw [List.foldl_append, hs.state, ← hbefore, hreacts.responsePacket_eq]
    exact hhear
  · intro packet' hlast
    rw [List.getLast?_concat] at hlast
    exact Option.some.inj hlast
  · exact hreacts.transferInfo_eq.trans hti
  · exact huser'.trans huser
  · exact hkeyless'

/-- A 901 hears none. -/
theorem Heard.unanswered (hs : Heard pf s answers t)
    (h : Program.run exec (sendAndRecieve pf .nValidCrc) t = (.ok b, t')) :
    Heard pf s answers t' := by
  obtain ⟨s₁, connection, hloads, hincoming, hrest⟩ := sendAndRecieve_sent h
  cases hrest
  cases hloads with
  | unbuilt hnot => exact absurd rfl hnot
  | built _ =>
    exact ⟨hincoming ▸ hs.stream, hs.state, hs.last, hs.transferInfo_eq, hs.userName_eq,
      hs.keyless⟩

end Hearing

/-! ## Exchanges one after the other -/

/-- The code of the `i`-th response in the stream, as the label of a `switch`. -/
def answerLabel (s : Process K) (i : Nat) : Option ResponseCode :=
  (responses s.connection.incoming)[i]?.bind fun packet => ResponseCode.ofValue packet.code

section Sequence

variable (pf : Platform K)

/-- One `sendAndRecieve` for each code. -/
def sendAll : List RequestCode → Cpp K Unit
  | [] => pure ()
  | code :: codes => do
    let _ ← sendAndRecieve pf code
    sendAll codes

/-- In `s` these exchanges all go through. -/
def GoesThrough (codes : List RequestCode) (s : Process K) : Prop :=
  (Program.run exec (sendAll pf codes) s).1 = .ok ()

theorem sendAll_append (codes codes' : List RequestCode) :
    sendAll pf (codes ++ codes') = sendAll pf codes >>= fun _ => sendAll pf codes' := by
  induction codes with
  | nil => rfl
  | cons code codes ih => simp only [List.cons_append, sendAll, ih, Program.bind_assoc]

theorem errorResendLoop_eq (toDo : RequestCode) (rounds : Nat) :
    errorResendLoop pf toDo rounds = sendAll pf (List.replicate rounds toDo) := by
  induction rounds with
  | zero => rfl
  | succ rounds ih => rw [errorResendLoop, ih, List.replicate_succ, sendAll]

variable {pf} {s t t' : Process K} {answers : List ResponsePacket} {codes : List RequestCode}

/-- What `t` heard is the front of the stream. -/
theorem Heard.take (hs : Heard pf s answers t) :
    (responses s.connection.incoming).take answers.length = answers := by
  rw [hs.stream, List.take_left]

theorem Heard.crcValid_eq (hs : Heard pf s answers t) :
    t.members.crcValid = flagAfter pf s answers.length := by
  rw [flagAfter, hs.take, hs.state]

/-- The last response is still in hand. -/
theorem Heard.label_eq (hs : Heard pf s answers t) (hpos : 0 < answers.length) :
    answerLabel s (answers.length - 1) = ResponseCode.ofValue t.members.responsePacket.code := by
  have hlast : answers.getLast? = some t.members.responsePacket := by
    obtain ⟨packet, hpacket⟩ : ∃ packet, answers.getLast? = some packet :=
      Option.isSome_iff_exists.mp (List.getLast?_isSome.mpr (List.ne_nil_of_length_pos hpos))
    rw [hpacket, hs.last packet hpacket]
  rw [List.getLast?_eq_getElem?] at hlast
  rw [answerLabel, hs.stream, List.getElem?_append_left (by omega), hlast]
  rfl

/-- **A run of exchanges hears one response each**, but for a 901. -/
theorem Heard.after (hs : Heard pf s answers t)
    (h : Program.run exec (sendAll pf codes) t = (.ok (), t')) :
    ∃ more, Heard pf s (answers ++ more) t' ∧
      more.length = (codes.filter fun code => code ≠ .nValidCrc).length := by
  induction codes generalizing t answers with
  | nil =>
    cases h
    exact ⟨[], by rwa [List.append_nil], rfl⟩
  | cons code codes ih =>
    rw [sendAll, Program.run_bind] at h
    generalize hfirst : Program.run exec (sendAndRecieve pf code) t = result at h
    rcases result with ⟨e | b, t₁⟩
    · cases h
    by_cases hcode : code = .nValidCrc
    · subst hcode
      obtain ⟨more, hmore, hlength⟩ := ih (hs.unanswered hfirst) h
      exact ⟨more, hmore, by simpa using hlength⟩
    · obtain ⟨more, hmore, hlength⟩ := ih (hs.answered hcode hfirst) h
      refine ⟨t₁.members.responsePacket :: more, ?_, ?_⟩
      · rwa [List.append_assoc, List.singleton_append] at hmore
      · rw [List.filter_cons_of_pos (by simpa using hcode), List.length_cons, List.length_cons,
          hlength]

end Sequence

/-! ## The way to `VALID_CRC` -/

/-- How often a request goes out by `RESEND_IF_SERVER_ERROR`, the first response to it
having this code. -/
def tries (label : Option ResponseCode) : Nat := if label = some .generalErr then 3 else 1

section Opening

variable (pf : Platform K) (s : Process K)

/-- How many 826s a call from `s` sends before the first 828. -/
def keyTries : Nat := if s.members.registeredClient then 0 else tries (answerLabel s 0)

/-- How many 828s it sends before `VALID_CRC`. -/
def fileTries : Nat := tries (answerLabel s (keyTries s))

/-- What it sends on the way to `VALID_CRC`. Each of these gets a response. -/
def opening : List RequestCode :=
  List.replicate (keyTries s) .sPublicKey ++ List.replicate (fileTries s) .sendFile

/-- How many responses it has heard then. -/
def heardAtCheck : Nat := keyTries s + fileTries s

/-- A call from `s` comes to `VALID_CRC`: the exchanges before it go through, and neither
the last response to an 826 nor the last one to an 828 is a 1607. -/
structure ReachesCheck : Prop where
  through : GoesThrough pf (opening s) s
  keys : s.members.registeredClient = false → answerLabel s (keyTries s - 1) ≠ some .generalErr
  file : answerLabel s (heardAtCheck s - 1) ≠ some .generalErr

variable {pf s} {t : Process K} {answers : List ResponsePacket}

theorem tries_pos (label : Option ResponseCode) : 0 < tries label := by
  rw [tries]
  split <;> decide

theorem filter_replicate_answered {code : RequestCode} (n : Nat) (hcode : code ≠ .nValidCrc) :
    ((List.replicate n code).filter fun code => code ≠ .nValidCrc).length = n := by
  rw [List.filter_replicate_of_pos (by simpa using hcode), List.length_replicate]

/-- A request and its resends, by the responses in the stream. -/
theorem Heard.run_resent (hs : Heard pf s answers t) {toDo : RequestCode}
    (htoDo : toDo ≠ .nValidCrc) :
    Program.run exec (do
      let _ ← sendAndRecieve pf toDo
      resendIfServerError pf toDo) t =
    Program.run exec (do
      sendAll pf (List.replicate (tries (answerLabel s answers.length)) toDo)
      pure (answerLabel s (answers.length + tries (answerLabel s answers.length) - 1) !=
        some .generalErr)) t := by
  obtain ⟨more, hmore⟩ := Nat.exists_eq_add_of_lt (tries_pos (answerLabel s answers.length))
  rw [Nat.zero_add] at hmore
  have hsplit : List.replicate (tries (answerLabel s answers.length)) toDo =
      toDo :: List.replicate more toDo := by rw [hmore, List.replicate_succ]
  simp only [hsplit, sendAll, Program.run_bind]
  generalize hfirst : Program.run exec (sendAndRecieve pf toDo) t = result
  rcases result with ⟨e | b, t₁⟩
  · rfl
  -- the first response is in hand, and says how often to resend
  have hs₁ := hs.answered htoDo hfirst
  have hlabel := hs₁.label_eq (by simp)
  rw [List.length_append, List.length_singleton, Nat.add_sub_cancel] at hlabel
  have hcode : ∀ u : Process K, Program.run exec responseCode u =
      (.ok (ResponseCode.ofValue u.members.responsePacket.code), u) := fun _ => rfl
  simp only [resendIfServerError, Program.run_bind, hcode]
  by_cases herror : answerLabel s answers.length = some .generalErr
  · obtain rfl : more = 2 := by
      rw [tries, if_pos herror] at hmore
      omega
    rw [if_pos (hlabel.symm.trans herror), errorResend, errorResendLoop_eq, Program.run_bind]
    generalize hagain : Program.run exec (sendAll pf (List.replicate 2 toDo)) t₁ = result
    rcases result with ⟨e | u, t₂⟩
    · rfl
    obtain ⟨answers', hs₂, hlength⟩ := hs₁.after hagain
    rw [filter_replicate_answered 2 htoDo] at hlength
    have hlast := hs₂.label_eq (by simp)
    simp only [List.length_append, List.length_singleton, hlength] at hlast
    rw [hmore, ← Nat.add_assoc, Nat.add_right_comm, hlast]
    rfl
  · obtain rfl : more = 0 := by
      rw [tries, if_neg herror] at hmore
      omega
    rw [if_neg fun h => herror (hlabel.trans h), hmore]
    have htrue : (answerLabel s answers.length != some .generalErr) = true := by
      simpa using herror
    exact congrArg (fun b => (Except.ok b, t₁)) htrue.symm

theorem run_exchangeKeys (pf : Platform K) (s : Process K) :
    Program.run exec (exchangeKeys pf) s =
      Program.run exec (do
        sendAll pf (List.replicate (keyTries s) .sPublicKey)
        pure (s.members.registeredClient ||
          answerLabel s (keyTries s - 1) != some .generalErr)) s := by
  rw [exchangeKeys, Program.run_bind, Cpp.run_members]
  dsimp only
  cases hregistered : s.members.registeredClient with
  | true =>
    have hkeys : keyTries s = 0 := by rw [keyTries, if_pos hregistered]
    rw [hkeys]
    rfl
  | false =>
    have hkeys : keyTries s = tries (answerLabel s 0) := by
      rw [keyTries, if_neg (Bool.eq_false_iff.mp hregistered)]
    have hresent := (Heard.start pf s).run_resent
      (show RequestCode.sPublicKey ≠ .nValidCrc by decide)
    simp only [List.length_nil, Nat.zero_add] at hresent
    rw [hkeys, Bool.false_or]
    exact hresent

/-- Where the exchanges go through, the last responses decide. -/
theorem reachesCheck_iff {c : Process K}
    (h : Program.run exec (sendAll pf (opening s)) s = (.ok (), c)) :
    ReachesCheck pf s ↔
      (s.members.registeredClient || answerLabel s (keyTries s - 1) != some .generalErr) = true ∧
        (answerLabel s (heardAtCheck s - 1) != some .generalErr) = true := by
  constructor
  · intro hs
    refine ⟨?_, by simpa using hs.file⟩
    cases hregistered : s.members.registeredClient with
    | true => rfl
    | false => simpa using hs.keys hregistered
  · rintro ⟨hkeys, hfile⟩
    refine ⟨by rw [GoesThrough, h], fun hnot => ?_, by simpa using hfile⟩
    simpa [hnot] using hkeys

/-- **How a call comes to `VALID_CRC`**, by the responses in the stream. -/
theorem run_sendFile_iff {c : Process K} :
    Program.run exec (sendFile pf) s = (.ok true, c) ↔
      ReachesCheck pf s ∧ Program.run exec (sendAll pf (opening s)) s = (.ok (), c) := by
  refine Iff.trans ?_ (and_congr_left fun h => (reachesCheck_iff h)).symm
  rw [sendFile, Program.run_bind, run_exchangeKeys, opening, sendAll_append, Program.run_bind,
    Program.run_bind]
  generalize hkeys : Program.run exec (sendAll pf (List.replicate (keyTries s) .sPublicKey)) s =
    result
  rcases result with ⟨e | u, t⟩
  · exact iff_of_false (fun h => by cases h) fun h => by cases h.2
  obtain ⟨answers, ht, hlength⟩ := (Heard.start pf s).after hkeys
  rw [filter_replicate_answered _ (by decide)] at hlength
  rw [List.nil_append] at ht
  cases hgo : s.members.registeredClient || answerLabel s (keyTries s - 1) != some .generalErr with
  | false => exact iff_of_false (fun h => by cases h) fun h => by cases h.1.1
  | true =>
    have hresent := ht.run_resent (show RequestCode.sendFile ≠ .nValidCrc by decide)
    rw [hlength] at hresent
    simp only [Program.pure_eq, Program.run_ret, if_true]
    rw [hresent, ← fileTries, ← heardAtCheck, Program.run_bind]
    generalize Program.run exec (sendAll pf (List.replicate (fileTries s) .sendFile)) t = result
    rcases result with ⟨e | u, c'⟩
    · exact iff_of_false (fun h => by cases h) fun h => by cases h.2
    · constructor
      · intro h
        obtain ⟨hlabel, rfl⟩ := Prod.mk.inj h
        exact ⟨⟨trivial, Except.ok.inj hlabel⟩, rfl⟩
      · rintro ⟨⟨-, hlabel⟩, hsame⟩
        obtain ⟨-, rfl⟩ := Prod.mk.inj hsame
        exact congrArg (fun b => (Except.ok b, c')) hlabel

/-- What has been heard when the call comes to `VALID_CRC`. -/
theorem heard_opening {c : Process K}
    (h : Program.run exec (sendAll pf (opening s)) s = (.ok (), c)) :
    ∃ answers, Heard pf s answers c ∧ answers.length = heardAtCheck s := by
  obtain ⟨answers, hc, hlength⟩ := (Heard.start pf s).after h
  refine ⟨answers, hc, ?_⟩
  rw [hlength, opening, List.filter_append, List.length_append,
    filter_replicate_answered _ (by decide), filter_replicate_answered _ (by decide),
    heardAtCheck]

theorem heardAtCheck_pos (s : Process K) : 0 < heardAtCheck s :=
  Nat.add_pos_right _ (tries_pos _)

/-- The flag and the response that `VALID_CRC` finds. -/
theorem ReachesCheck.at_check (h : ReachesCheck pf s) :
    ∃ c, Program.run exec (sendFile pf) s = (.ok true, c) ∧
      c.members.crcValid = flagAfter pf s (heardAtCheck s) ∧
      ResponseCode.ofValue c.members.responsePacket.code =
        answerLabel s (heardAtCheck s - 1) := by
  obtain ⟨c, hrun⟩ : ∃ c, Program.run exec (sendAll pf (opening s)) s = (.ok (), c) :=
    ⟨_, Prod.ext h.through rfl⟩
  obtain ⟨answers, hc, hlength⟩ := heard_opening hrun
  refine ⟨c, run_sendFile_iff.mpr ⟨h, hrun⟩, ?_, ?_⟩
  · rw [hc.crcValid_eq, hlength]
  · rw [← hlength, hc.label_eq (hlength ▸ heardAtCheck_pos s)]

end Opening

end FileTransfer.Client
