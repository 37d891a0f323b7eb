import FileTransfer.Client.CutOff

/-!
# Responses with a short payload

The size of a payload comes from the server. `recieveAesKey` subtracts the size of a
client ID from it without a sign, `checkSum` counts four bytes back from the end, and the
copy of the client ID in `registerNewClient` does not look at it.
-/

namespace FileTransfer.Client

open FileTransfer.Effect

variable {K : Type}

/-! ## What the handlers need -/

/-- How many bytes a payload has at least: a client ID, a client ID and something behind
it, a checksum. -/
def ResponseCode.needs : ResponseCode → Nat
  | .regSuccessful => uidSize
  | .inPublicOutCrypted => uidSize + 1
  | .okReconnOutAes => uidSize + 1
  | .validCrcFile => 4
  | _ => 0

/-- The payload is too short for the code. -/
def TooShort (packet : ResponsePacket) : Prop :=
  ∃ label, ResponseCode.ofValue packet.code = some label ∧ packet.payload.length < label.needs

/-- `memcrc` is asked for the checksum of a file that its counter cannot count. -/
def CounterOverflows (pf : Platform K) (t : Process K) : Prop :=
  ResponseCode.ofValue t.members.responsePacket.code = some .validCrcFile ∧
    readfile pf.longBits (t.folder.file t.members.requestHandler.transferInfo.path) = none

/-- There is a `key.priv` that can be opened and holds a private key. -/
def LoadsKey (rsa : Rsa K) (s : Process K) : Prop :=
  ∃ key privateKey, s.folder.ifstream keyPriv = some key ∧
    rsa.loadPrivateKeyFromBase64 key = some privateKey

/-- Without such a file the cipher is not looked at. -/
theorem decryptAESKey_keyless {rsa : Rsa K} {s : Process K} (h : ¬ LoadsKey rsa s)
    (cipher : Option Bytes) :
    (Program.run exec (decryptAESKey rsa cipher) s).1 = .error .exception := by
  simp only [decryptAESKey, readPrivateRsaKey, Program.run_bind, Cpp.run_ifstream]
  cases hkey : s.folder.ifstream keyPriv with
  | none => rfl
  | some key =>
    simp only [Program.pure_eq, Program.run_ret]
    cases hload : rsa.loadPrivateKeyFromBase64 key with
    | none => rfl
    | some privateKey => exact absurd ⟨key, privateKey, hkey, hload⟩ h

/-- With it, a cipher outside the payload is read. -/
theorem decryptAESKey_outside {rsa : Rsa K} {s : Process K} (h : LoadsKey rsa s) :
    (Program.run exec (decryptAESKey rsa none) s).1 = .error .outOfBounds := by
  obtain ⟨key, privateKey, hkey, hload⟩ := h
  simp only [decryptAESKey, readPrivateRsaKey, Program.run_bind, Cpp.run_ifstream, hkey,
    Program.pure_eq, Program.run_ret, hload, Cpp.run_members, Cpp.run_assign, Cpp.run_lift]
  rfl

/-- On a cipher in the payload `decryptAESKey` returns `true` or throws an exception. -/
theorem decryptAESKey_result (rsa : Rsa K) (cipher : Bytes) (s : Process K) :
    (Program.run exec (decryptAESKey rsa (some cipher)) s).1 = .ok true ∨
      (Program.run exec (decryptAESKey rsa (some cipher)) s).1 = .error .exception := by
  simp only [decryptAESKey, readPrivateRsaKey, Program.run_bind, Cpp.run_ifstream]
  cases s.folder.ifstream keyPriv with
  | none => exact Or.inr rfl
  | some key =>
    simp only [Program.pure_eq, Program.run_ret]
    cases rsa.loadPrivateKeyFromBase64 key with
    | none => exact Or.inr rfl
    | some privateKey =>
      simp only [Program.run_bind, Cpp.run_members, Cpp.run_assign, Cpp.run_lift, inBounds_some]
      cases rsa.oaepDecrypt privateKey cipher with
      | none => exact Or.inr rfl
      | some decrypted =>
        simp only
        split
        · exact Or.inl rfl
        · exact Or.inr rfl

section Key

variable {rsa : Rsa K} {payload : Bytes} {s : Process K}

/-- Without a whole client ID the subtraction wraps around, and a key that is there is
used on what lies outside. -/
theorem recieveAesKey_short (h : payload.length < uidSize) (hkey : LoadsKey rsa s) :
    (Program.run exec (recieveAesKey rsa payload) s).1 = .error .outOfBounds := by
  have hcipher : cipherOfPayload payload = none := if_neg (Nat.not_le_of_lt h)
  rw [recieveAesKey, Cpp.run_catchException, if_neg (Nat.ne_of_lt h), hcipher]
  simp only [decryptAESKey_outside hkey]

/-- The exception that is meant for this is thrown on a client ID with nothing behind it;
without a key another one is. -/
theorem recieveAesKey_fails (h : payload.length = uidSize ∨ ¬ LoadsKey rsa s) :
    (Program.run exec (recieveAesKey rsa payload) s).1 = .ok false := by
  rw [recieveAesKey, Cpp.run_catchException]
  by_cases hempty : payload.length = uidSize
  · rw [if_pos hempty]
    rfl
  · rw [if_neg hempty]
    simp only [decryptAESKey_keyless (h.resolve_left hempty)]

theorem recieveAesKey_returns (h : uidSize ≤ payload.length ∨ ¬ LoadsKey rsa s) :
    ∃ b, (Program.run exec (recieveAesKey rsa payload) s).1 = .ok b := by
  by_cases hfails : payload.length = uidSize ∨ ¬ LoadsKey rsa s
  · exact ⟨false, recieveAesKey_fails hfails⟩
  · obtain ⟨hmore, hloads⟩ := not_or.mp hfails
    have hcipher : cipherOfPayload payload = some (payload.drop uidSize) :=
      if_pos (h.resolve_right hloads)
    rw [recieveAesKey, Cpp.run_catchException, if_neg hmore, hcipher]
    rcases decryptAESKey_result rsa (payload.drop uidSize) s with htrue | hthrown
    · exact ⟨true, by simp only [htrue]⟩
    · exact ⟨false, by simp only [hthrown]⟩

end Key

section Checksum

variable {w : Nat} {payload : Bytes} {s : Process K}

theorem run_receiveChecksum : (Program.run exec (receiveChecksum w payload) s).1 =
    (checkSum w s.members.requestHandler.transferInfo
      (fun _ => s.folder.file s.members.requestHandler.transferInfo.path) payload).map
        Prod.fst := by
  simp only [receiveChecksum, Program.run_bind, Cpp.run_members, Cpp.run_lookup, Cpp.run_lift]
  generalize checkSum w s.members.requestHandler.transferInfo
    (fun _ => s.folder.file s.members.requestHandler.transferInfo.path) payload = result
  rcases result with e | ⟨status, crcValid⟩
  · rfl
  · rfl

/-- Three bytes and fewer have no last four. -/
theorem receiveChecksum_short (h : payload.length < 4) :
    (Program.run exec (receiveChecksum w payload) s).1 = .error .outOfBounds := by
  have hnone : crcOfPayload payload = none := if_neg (by omega)
  rw [run_receiveChecksum, checkSum, hnone]
  generalize readfile w _ = crcClient
  cases crcClient with
  | none => rfl
  | some crc => rfl

/-- Otherwise the file decides. -/
theorem receiveChecksum_enough (h : 4 ≤ payload.length) :
    (Program.run exec (receiveChecksum w payload) s).1 = .ok true ∨
      readfile w (s.folder.file s.members.requestHandler.transferInfo.path) = none := by
  have hsome : crcOfPayload payload = some (payload.drop (payload.length - 4)) := if_pos h
  rw [run_receiveChecksum, checkSum, hsome]
  cases readfile w (s.folder.file s.members.requestHandler.transferInfo.path) with
  | none => exact Or.inr rfl
  | some crc => exact Or.inl rfl

end Checksum

/-! ## The selector -/

/-- The response is read where it has bytes to read: a key behind the client ID or the
client ID alone unless there is no private key for it, a checksum, and a client ID unless
the files of the client are refused. -/
structure LongEnough (rsa : Rsa K) (t : Process K) : Prop where
  key : ∀ label, ResponseCode.ofValue t.members.responsePacket.code = some label →
    label = .inPublicOutCrypted ∨ label = .okReconnOutAes →
      uidSize ≤ t.members.responsePacket.payload.length ∨ ¬ LoadsKey rsa t
  crc : ResponseCode.ofValue t.members.responsePacket.code = some .validCrcFile →
    4 ≤ t.members.responsePacket.payload.length
  uuid : ResponseCode.ofValue t.members.responsePacket.code = some .regSuccessful →
    uidSize ≤ t.members.responsePacket.payload.length ∨ ¬ (SavesKey t ∧ SavesIdentity t)

section Selector

variable {pf : Platform K} {t : Process K}

theorem responseSelector_key {label : ResponseCode}
    (hcode : ResponseCode.ofValue t.members.responsePacket.code = some label)
    (h : label = .inPublicOutCrypted ∨ label = .okReconnOutAes) :
    Program.run exec (responseSelector pf.rsa pf.longBits) t =
      Program.run exec (recieveAesKey pf.rsa t.members.responsePacket.payload) t := by
  simp only [responseSelector, Program.run_bind, Cpp.run_members, hcode]
  rcases h with rfl | rfl
  · rfl
  · rfl

theorem responseSelector_crc
    (hcode : ResponseCode.ofValue t.members.responsePacket.code = some .validCrcFile) :
    Program.run exec (responseSelector pf.rsa pf.longBits) t =
      Program.run exec (receiveChecksum pf.longBits t.members.responsePacket.payload) t := by
  simp only [responseSelector, Program.run_bind, Cpp.run_members, hcode]

/-- `createNewClientFile` does not look at the length of the client ID. -/
theorem responseSelector_uuid
    (hcode : ResponseCode.ofValue t.members.responsePacket.code = some .regSuccessful) :
    (Program.run exec (responseSelector pf.rsa pf.longBits) t).1 =
      .ok (decide (SavesKey t ∧ SavesIdentity t)) := by
  simp only [responseSelector, Program.run_bind, Cpp.run_members, hcode]
  obtain ⟨opens, hrun⟩ := run_createNewClientFile pf.rsa t t.members.responsePacket.payload
  rw [hrun]
  by_cases hkey : SavesKey t
  · by_cases hidentity : SavesIdentity t
    · simp [hkey, hidentity]
    · simp [hkey, hidentity]
  · simp [hkey]

/-- Nothing else that is received is looked into. -/
theorem responseSelector_other
    (h : ∀ label, ResponseCode.ofValue t.members.responsePacket.code = some label →
      label.needs = 0) :
    ∃ b, (Program.run exec (responseSelector pf.rsa pf.longBits) t).1 = .ok b := by
  simp only [responseSelector, Program.run_bind, Cpp.run_members]
  cases hcode : ResponseCode.ofValue t.members.responsePacket.code with
  | none => exact ⟨false, rfl⟩
  | some label =>
    have hneeds := h label hcode
    cases label with
    | regSuccessful => cases hneeds
    | inPublicOutCrypted => cases hneeds
    | okReconnOutAes => cases hneeds
    | validCrcFile => cases hneeds
    | generalErr => exact ⟨true, rfl⟩
    | regFailed => exact ⟨true, rfl⟩
    | reconnectFailed => exact ⟨true, rfl⟩
    | msgRecieved => exact ⟨true, rfl⟩

/-- A long enough response is read inside its payload. -/
theorem LongEnough.inside (h : LongEnough pf.rsa t)
    (herror : (Program.run exec (responseSelector pf.rsa pf.longBits) t).1 =
      .error .outOfBounds) : CounterOverflows pf t := by
  have hreturns : ∀ {b : Bool}, (Program.run exec (responseSelector pf.rsa pf.longBits) t).1 =
      .ok b → CounterOverflows pf t := by
    intro b hb
    rw [hb] at herror
    cases herror
  have hkey : ∀ label, ResponseCode.ofValue t.members.responsePacket.code = some label →
      label = .inPublicOutCrypted ∨ label = .okReconnOutAes → CounterOverflows pf t := by
    intro label hcode hlabel
    obtain ⟨b, hb⟩ := recieveAesKey_returns (h.key label hcode hlabel)
    rw [← responseSelector_key hcode hlabel] at hb
    exact hreturns hb
  by_cases hcrc : ResponseCode.ofValue t.members.responsePacket.code = some .validCrcFile
  · rcases @receiveChecksum_enough _ pf.longBits _ t (h.crc hcrc) with htrue | hnone
    · rw [← responseSelector_crc hcrc] at htrue
      exact hreturns htrue
    · exact ⟨hcrc, hnone⟩
  by_cases huuid : ResponseCode.ofValue t.members.responsePacket.code = some .regSuccessful
  · exact hreturns (responseSelector_uuid huuid)
  by_cases hnew : ResponseCode.ofValue t.members.responsePacket.code = some .inPublicOutCrypted
  · exact hkey _ hnew (Or.inl rfl)
  by_cases hold : ResponseCode.ofValue t.members.responsePacket.code = some .okReconnOutAes
  · exact hkey _ hold (Or.inr rfl)
  · obtain ⟨b, hb⟩ := @responseSelector_other _ pf t (by
      intro label hcode
      rw [hcode] at hcrc huuid hnew hold
      cases label <;> first | rfl | contradiction)
    exact hreturns hb

/-- If it is too short all the same, that is reported. -/
theorem LongEnough.reports (h : LongEnough pf.rsa t) (hshort : TooShort t.members.responsePacket) :
    (Program.run exec (responseSelector pf.rsa pf.longBits) t).1 = .ok false := by
  obtain ⟨label, hcode, hlength⟩ := hshort
  have hkey : label = .inPublicOutCrypted ∨ label = .okReconnOutAes →
      label.needs = uidSize + 1 →
      (Program.run exec (responseSelector pf.rsa pf.longBits) t).1 = .ok false := by
    intro hlabel hneeds
    rw [responseSelector_key hcode hlabel]
    -- a payload that is long enough and too short is a client ID
    exact recieveAesKey_fails ((h.key label hcode hlabel).imp_left fun hlong => by omega)
  cases label with
  | inPublicOutCrypted => exact hkey (Or.inl rfl) rfl
  | okReconnOutAes => exact hkey (Or.inr rfl) rfl
  | validCrcFile =>
    have hlong := h.crc hcode
    have hlength : t.members.responsePacket.payload.length < 4 := hlength
    omega
  | regSuccessful =>
    have hlength : t.members.responsePacket.payload.length < uidSize := hlength
    rw [responseSelector_uuid hcode]
    rcases h.uuid hcode with hlong | hrefused
    · omega
    · rw [decide_eq_false hrefused]
  | generalErr => exact absurd hlength (Nat.not_lt_zero _)
  | regFailed => exact absurd hlength (Nat.not_lt_zero _)
  | reconnectFailed => exact absurd hlength (Nat.not_lt_zero _)
  | msgRecieved => exact absurd hlength (Nat.not_lt_zero _)

end Selector

/-! ## The operations -/

section Operations

variable (pf : Platform K)

/-- The request for `code` has been sent, and its response has just arrived. -/
def Receives (code : RequestCode) (s t : Process K) : Prop :=
  ∃ t₀, Awaits pf code s t₀ ∧ Program.run exec Cpp.receiveData t₀ = (.ok true, t)

variable {pf} {code : RequestCode} {s t : Process K}

/-- What is left of `sendAndRecieve` when the response is there. -/
theorem Receives.run_sendAndRecieve (h : Receives pf code s t) (hcode : code ≠ .nValidCrc) :
    Program.run exec (sendAndRecieve pf code) s = Program.run exec (do
      throwIfNot (← responseSelector pf.rsa pf.longBits)
      pure true) t := by
  obtain ⟨t₀, hawaits, hreceived⟩ := h
  rw [hawaits.run_sendAndRecieve hcode, Program.run_bind, hreceived]
  rfl

/-- A failure that is reported ends the exchange with an exception. -/
theorem Receives.throws (h : Receives pf code s t) (hcode : code ≠ .nValidCrc)
    (hfailed : (Program.run exec (responseSelector pf.rsa pf.longBits) t).1 = .ok false) :
    (Program.run exec (sendAndRecieve pf code) s).1 = .error .exception := by
  rw [h.run_sendAndRecieve hcode, Program.run_bind]
  generalize Program.run exec (responseSelector pf.rsa pf.longBits) t = result at hfailed
  obtain ⟨r, t'⟩ := result
  obtain rfl : r = .ok false := hfailed
  rfl

/-- `registerNewClient` leaves a payload only with the selector, or in its own copy. -/
theorem Receives.registerNewClient_overrun (h : Receives pf .register s t)
    (herror : (Program.run exec (registerNewClient pf) s).1 = .error .outOfBounds) :
    (Program.run exec (responseSelector pf.rsa pf.longBits) t).1 = .error .outOfBounds ∨
      (Program.run exec (responseSelector pf.rsa pf.longBits) t).1 = .ok true ∧
        ResponseCode.ofValue t.members.responsePacket.code = some .regSuccessful ∧
        t.members.responsePacket.payload.length < uidSize := by
  have hreacts := (responseSelector_reacts pf t).responsePacket_eq
  rw [registerNewClient, Cpp.run_catchException, Program.run_bind,
    h.run_sendAndRecieve (by decide), Program.run_bind] at herror
  generalize Program.run exec (responseSelector pf.rsa pf.longBits) t = result
    at hreacts herror ⊢
  obtain ⟨r, t'⟩ := result
  have hpacket : t'.members.responsePacket = t.members.responsePacket := hreacts
  rcases r with (_ | _ | _) | _ | _
  · cases herror
  · cases herror
  · exact Or.inl rfl
  · cases herror
  · right
    simp only [throwIfNot, if_true, Program.pure_eq, Program.run_bind, Program.run_ret,
      responseCode, Cpp.run_members, hpacket] at herror
    by_cases hcode : ResponseCode.ofValue t.members.responsePacket.code = some .regSuccessful
    · refine ⟨rfl, hcode, ?_⟩
      by_contra hlong
      obtain ⟨id, hid⟩ : ∃ id, uidOf t.members.responsePacket.payload = some id :=
        ⟨_, dif_pos (Nat.le_of_not_lt hlong)⟩
      simp only [hcode, Program.run_bind, Cpp.run_members, Cpp.run_lift, hpacket, hid,
        inBounds_some, Cpp.run_assign] at herror
      cases herror
    · exfalso
      cases hlabel : ResponseCode.ofValue t.members.responsePacket.code with
      | none =>
        rw [hlabel] at herror
        cases herror
      | some label =>
        rw [hlabel] at herror hcode
        cases label <;> first | exact absurd rfl hcode | cases herror

variable (pf t)

/-- The response that has just arrived is read inside its payload, by the selector and by
`registerNewClient`, and one that is too short for its code makes the selector fail and the
operation report it. The one thing that may go wrong otherwise is the counter of `memcrc`. -/
structure HandledSafely : Prop where
  inside : (Program.run exec (responseSelector pf.rsa pf.longBits) t).1 = .error .outOfBounds →
    CounterOverflows pf t
  reports : TooShort t.members.responsePacket →
    (Program.run exec (responseSelector pf.rsa pf.longBits) t).1 = .ok false ∨
      (Program.run exec (responseSelector pf.rsa pf.longBits) t).1 = .error .exception
  throws : ∀ code s, code ≠ .nValidCrc → Receives pf code s t →
    TooShort t.members.responsePacket →
      (Program.run exec (sendAndRecieve pf code) s).1 = .error .exception
  copies : ∀ s, Receives pf .register s t →
    (Program.run exec (registerNewClient pf) s).1 = .error .outOfBounds → CounterOverflows pf t
  registers : ∀ s, Receives pf .register s t → TooShort t.members.responsePacket →
    (Program.run exec (registerNewClient pf) s).1 = .ok false

variable {pf t}

/-- What is not reported is not too short. -/
theorem HandledSafely.not_tooShort (h : HandledSafely pf t) {r : Except Fault Bool}
    (hresult : (Program.run exec (responseSelector pf.rsa pf.longBits) t).1 = r)
    (hfalse : r ≠ .ok false) (hthrown : r ≠ .error .exception) :
    ¬ TooShort t.members.responsePacket := by
  intro hshort
  rcases h.reports hshort with hreport | hreport
  · exact hfalse (hresult.symm.trans hreport)
  · exact hthrown (hresult.symm.trans hreport)

variable (pf t)

/-- **A response is handled safely** exactly if it is long enough. -/
theorem handledSafely_iff : HandledSafely pf t ↔ LongEnough pf.rsa t := by
  constructor
  · intro h
    constructor
    · intro label hcode hlabel
      by_contra hboth
      obtain ⟨hshort, hloads⟩ := not_or.mp hboth
      have hshort : t.members.responsePacket.payload.length < uidSize := Nat.lt_of_not_le hshort
      have hresult := recieveAesKey_short hshort (not_not.mp hloads)
      rw [← responseSelector_key hcode hlabel] at hresult
      apply h.not_tooShort hresult (by simp) (by simp)
      refine ⟨label, hcode, ?_⟩
      rcases hlabel with rfl | rfl
      · exact Nat.lt_succ_of_lt hshort
      · exact Nat.lt_succ_of_lt hshort
    · intro hcode
      by_contra hshort
      have hshort : t.members.responsePacket.payload.length < 4 := Nat.lt_of_not_le hshort
      have hresult := @receiveChecksum_short _ pf.longBits _ t hshort
      rw [← responseSelector_crc hcode] at hresult
      exact h.not_tooShort hresult (by simp) (by simp) ⟨_, hcode, hshort⟩
    · intro hcode
      by_contra hboth
      obtain ⟨hshort, hwritten⟩ := not_or.mp hboth
      have hresult := @responseSelector_uuid _ pf _ hcode
      rw [decide_eq_true (not_not.mp hwritten)] at hresult
      exact h.not_tooShort hresult (by simp) (by simp) ⟨_, hcode, Nat.lt_of_not_le hshort⟩
  · intro h
    refine ⟨h.inside, fun hshort => Or.inl (h.reports hshort), ?_, ?_, ?_⟩
    · intro code s hcode hreceives hshort
      exact hreceives.throws hcode (h.reports hshort)
    · intro s hreceives herror
      rcases hreceives.registerNewClient_overrun herror with hinside | ⟨htrue, hcode, hlength⟩
      · exact h.inside hinside
      · -- the files were written, so there is a whole client ID
        rw [responseSelector_uuid hcode] at htrue
        have hwritten := of_decide_eq_true (Except.ok.inj htrue)
        rcases h.uuid hcode with hlong | hrefused
        · omega
        · exact absurd hwritten hrefused
    · intro s hreceives hshort
      exact run_registerNewClient_of_exception
        (hreceives.throws (by decide) (h.reports hshort))

end Operations

/-- A client with a `key.priv`. -/
def keyHolder (incoming : Bytes) : Process Bytes :=
  toyProcess [1] (fun name => if name = keyPriv then some [1] else none) incoming

/-- The client when 15 bytes have come under the code of a key. -/
def shortKey : Process Bytes :=
  (keyHolder []).receives ⟨3, 1602, 15, List.replicate 15 9⟩ ⟨[], [], 10000, false⟩

/-- Its handler reads behind them. So does a registration that is answered with 15 bytes in
place of a key or with three of a checksum, or, by a client without files, with 15 bytes of
a client ID. -/
theorem short_payloads_read_outside :
    ¬ HandledSafely toyPlatform shortKey ∧
      (Program.run exec (responseSelector toyPlatform.rsa toyPlatform.longBits) shortKey).1 =
        .error .outOfBounds ∧
      (∀ answer ∈ [responseFrame .inPublicOutCrypted (List.replicate 15 9),
          responseFrame .validCrcFile (List.replicate 3 9)],
        (Program.run exec (registerNewClient toyPlatform) (keyHolder answer)).1 =
          .error .outOfBounds) ∧
      (Program.run exec (registerNewClient toyPlatform) (toyProcess [1] (fun _ => none)
        (responseFrame .regSuccessful (List.replicate 15 9)))).1 = .error .outOfBounds := by
  have hresult : (Program.run exec (responseSelector toyPlatform.rsa toyPlatform.longBits)
      shortKey).1 = .error .outOfBounds := by decide +kernel
  refine ⟨?_, hresult, by decide +kernel, by decide +kernel⟩
  intro h
  cases (h.inside hresult).1

end FileTransfer.Client
