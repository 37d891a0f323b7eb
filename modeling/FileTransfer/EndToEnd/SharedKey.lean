import FileTransfer.Client.KeyFile
import FileTransfer.EndToEnd.Confirmed

/-!
# Client and server share the key

A key exchange that the client accepts leaves one AES key on both sides, if the private
key in `key.priv` belongs to the public key that the server encrypts for. With it a
confirmed upload is stored byte for byte.
-/

namespace FileTransfer.EndToEnd

open FileTransfer.Client FileTransfer.Server FileTransfer.Effect FileTransfer.BlockMode
  FileTransfer.PurePath
open Program (Triple)

/-! ## Keys that belong together -/

section Keys

variable {K : Type} {pf : Platform K} {env : Env} {crypto : Crypto}
  {meanwhile : Nat → World → World} {Safe : World → Prop} {uid : Uid} {ti : TransferInfo}
  {name : Str} {file publicKey : Bytes} {k : K} {code : RequestCode} {s s' : Linked K Amid}
  {c c' : Process K} {r : Request} {answer : Response}

/-- The private key `k` opens what OAEP seals for the key in `publicKey`. -/
def Pairs (pf : Platform K) (crypto : Crypto) (publicKey : Bytes) (k : K) : Prop :=
  ∀ rsaKey seed message cipher, usableKey crypto publicKey = some rsaKey → seed.length = 20 →
    message.length = 32 → crypto.oaepEncrypt rsaKey seed message = .ok cipher →
    pf.rsa.oaepDecrypt k cipher = some message

/-- The process offers the key `publicKey`, and `key.priv` holds `k`. -/
structure Holds (pf : Platform K) (publicKey : Bytes) (k : K) (c : Process K) : Prop where
  publicKey_eq : c.members.publicKey = publicKey
  saved : ∃ text, c.folder.file keyPriv = some text ∧
    pf.rsa.loadPrivateKeyFromBase64 text = some k

/-- The row of the client at the server has the AES key that the client holds. -/
def Shared (uid : Uid) (s : Linked K Amid) : Prop :=
  ∃ row, s.server.state.world.clients.find? (·.uuid = uid) = some row ∧
    row.aesKey = s.client.members.requestHandler.eh.key

theorem Holds.loads {result : Except Fault Bool} (h : Holds pf publicKey k c)
    (hloads : Loads code c result c') : Holds pf publicKey k c' := by
  cases hloads <;> exact ⟨h.publicKey_eq, h.saved⟩

theorem Holds.reacts {result : Except Fault Bool} (h : Holds pf publicKey k c)
    (hreacts : Reacts pf c result c') : Holds pf publicKey k c' := by
  obtain ⟨text, hsaved, hload⟩ := h.saved
  refine ⟨?_, text, Reacts.file_eq hreacts hsaved, hload⟩
  cases hreacts <;> exact h.publicKey_eq

section AnyServer

variable {σ : Type} {select : Header → Bytes → σ → Except Raised Handled × σ} {t t' : Linked K σ}

/-- The keys when the answer is read. -/
theorem Answered.holds_exchanged (h : Answered select pf code t t' c r answer)
    (hs : Holds pf publicKey k t.client) :
    Holds pf publicKey k (exchanged c answer.packet (after t.client.connection r.wire)) := by
  have hloads := requestSelector_loads pf.aesEncryptBlock code t.client
  rw [h.loaded] at hloads
  have hloaded := hs.loads hloads
  exact ⟨hloaded.publicKey_eq, hloaded.saved⟩

/-- Every exchange keeps the keys. -/
theorem Answered.holds (h : Answered select pf code t t' c r answer)
    (hs : Holds pf publicKey k t.client) : Holds pf publicKey k t'.client := by
  have hreacts := responseSelector_reacts pf
    (exchanged c answer.packet (after t.client.connection r.wire))
  rw [h.reacted] at hreacts
  exact (h.holds_exchanged hs).reacts hreacts

/-- The client ID stays in the packet. -/
theorem Answered.clientID_eq (h : Answered select pf code t t' c r answer) :
    t'.client.members.requestPacket.clientID = r.clientID := by
  have hreacts := responseSelector_reacts pf
    (exchanged c answer.packet (after t.client.connection r.wire))
  rw [h.reacted] at hreacts
  have hpacket : t'.client.members.requestPacket = c.members.requestPacket :=
    hreacts.requestPacket_eq
  rw [hpacket, h.request]
  rfl

/-- A response that is only noted stays in hand. -/
theorem Answered.noted (h : Answered select pf code t t' c r answer) {label : ResponseCode}
    (hcode : answer.packet.code = label.value)
    (hlabel : label = .generalErr ∨ label = .regFailed ∨ label = .reconnectFailed ∨
      label = .msgRecieved) :
    t'.client = exchanged c answer.packet (after t.client.connection r.wire) := by
  have hreacted := h.reacted
  rw [run_responseSelector_noted (ResponseCode.ofValue_eq_some.mpr hcode.symm) hlabel] at hreacted
  exact (Prod.mk.inj hreacted).2.symm

end AnyServer

/-! ## The answer of a key exchange -/

/-- A key that was accepted is the one that was encrypted. -/
theorem run_responseSelector_key {label : ResponseCode} {w : Nat} {rsa : Rsa K} {uid : Uid}
    {text cipher message : Bytes}
    (hcode : ResponseCode.ofValue c.members.responsePacket.code = some label)
    (hlabel : label = .inPublicOutCrypted ∨ label = .okReconnOutAes)
    (hpayload : c.members.responsePacket.payload = uid.bytes ++ cipher)
    (hsaved : c.folder.file keyPriv = some text)
    (hload : rsa.loadPrivateKeyFromBase64 text = some k)
    (hdecrypt : rsa.oaepDecrypt k cipher = some message)
    (h : Program.run Client.exec (responseSelector rsa w) c = (.ok true, c')) :
    c'.members.requestHandler.eh.key = message := by
  have hreceive : Program.run Client.exec (recieveAesKey rsa (uid.bytes ++ cipher)) c =
      (.ok true, c') := by
    simp only [responseSelector, Program.run_bind, Cpp.run_members, hcode] at h
    rw [hpayload] at h
    rcases hlabel with rfl | rfl <;> exact h
  have hcipher : cipherOfPayload (uid.bytes ++ cipher) = some cipher := by
    have hlength : uidSize ≤ (uid.bytes ++ cipher).length := by
      rw [List.length_append, uid.length_eq]
      exact Nat.le_add_right _ _
    rw [cipherOfPayload, if_pos hlength, List.drop_left' uid.length_eq]
  rw [recieveAesKey, Cpp.catchException, Program.run_tryCatch, hcipher] at hreceive
  by_cases hempty : (uid.bytes ++ cipher).length = uidSize
  · rw [if_pos hempty] at hreceive
    cases hreceive
  · rw [if_neg hempty] at hreceive
    -- the file opens, or nothing is accepted
    by_cases hopens : c.folder.opens 0 = true
    · have hread : c.folder.ifstream keyPriv = some text := by
        rw [Folder.ifstream, if_pos hopens, hsaved]
      by_cases hfits : message.length = 32
      · obtain ⟨-, hkey⟩ := run_decryptAESKey hopens hsaved hload hdecrypt hfits
        rcases hrun : Program.run Client.exec (decryptAESKey rsa (some cipher)) c with ⟨e | b, c₁⟩
        · rw [hrun] at hreceive
          cases e <;> cases hreceive
        · rw [hrun] at hreceive hkey
          cases hreceive
          rw [hkey]
      · simp [decryptAESKey, readPrivateRsaKey, hread, hload, hdecrypt, hfits] at hreceive
    · have hread : c.folder.ifstream keyPriv = none := by
        rw [Folder.ifstream, if_neg hopens]
      simp [decryptAESKey, readPrivateRsaKey, hread] at hreceive

/-- The key of an exchange that both sides accepted. -/
theorem Answered.key_eq (h : Answered (serveAmid env crypto meanwhile) pf code s s' c r answer)
    (hholds : Holds pf publicKey k s.client) {x : KeyExchange} (label : ResponseCode)
    {offered response : Bytes} {row row' : ClientRow}
    (hagreed : KeyExchange.Agreed crypto x offered response row row')
    (hbuilt : answer.build = .ok response) (hcode : x.code = label.value.toNat)
    (hlabel : label = .inPublicOutCrypted ∨ label = .okReconnOutAes)
    (hpairs : Pairs pf crypto offered k) :
    s'.client.members.requestHandler.eh.key = row'.aesKey := by
  obtain ⟨rsaKey, seed, husable, hseed, hsealed⟩ := hagreed.carried
  simp only [KeyExchange.sealed, bind, Except.bind] at hsealed
  cases hcipher : crypto.oaepEncrypt rsaKey seed row'.aesKey with
  | error e =>
    rw [hcipher] at hsealed
    cases hsealed
  | ok cipher =>
    rw [hcipher] at hsealed
    obtain rfl := @build_injective answer ⟨Constants.version, x.code, x.uid.bytes ++ cipher⟩ _
      hbuilt hsealed
    obtain ⟨text, hsaved, hload⟩ := (h.holds_exchanged hholds).saved
    have hpacket : ResponseCode.ofValue (UInt16.ofNat x.code) = some label := by
      rw [hcode, UInt16.ofNat_toNat]
      exact ResponseCode.ofValue_eq_some.mpr rfl
    exact run_responseSelector_key hpacket hlabel rfl hsaved hload
      (hpairs rsaKey seed _ cipher husable hseed hagreed.length_eq hcipher) h.reacted

/-- **An answered 826**: refused, or the two share a key. -/
theorem Answered.offered
    (h : Answered (serveAmid env crypto meanwhile) pf .sPublicKey s s' c r answer)
    (hclient : r.clientID = uid) (hholds : Holds pf publicKey k s.client)
    (hlength : publicKey.length = Constants.publicKey) (hpairs : Pairs pf crypto publicKey k) :
    s'.client.members.responsePacket.code = ResponseCode.generalErr.value ∨ Shared uid s' := by
  obtain ⟨response, hserve, hbuilt⟩ := h.serve_eq
  have hcode : r.received.1.code = Constants.sPublicKey := h.code_received
  rcases offer_outcome hcode hserve with rfl | ⟨row, row', -, hrow', hagreed, -, -⟩
  · left
    rw [h.noted (answer_refused hbuilt) (.inl rfl)]
    exact answer_refused hbuilt
  · right
    have hoffered : KeyExchange.offeredKey r.received.2 = publicKey := by
      obtain ⟨packet, hpacket, rfl⟩ := run_loadRequest_ok h.loaded
      have hpayload : r.received.2 = packet.payload :=
        (congrArg RequestPacket.payload h.request).symm
      rw [hpayload, (sendPublicKey_ok hpacket).2.2, hholds.publicKey_eq, KeyExchange.offeredKey,
        List.length_append, hlength, Nat.add_sub_cancel, List.drop_left]
    rw [hoffered] at hagreed
    refine ⟨row', ?_, ?_⟩
    · rw [← hclient]
      exact hrow'
    · exact (h.key_eq hholds .inPublicOutCrypted hagreed hbuilt rfl (.inl rfl)
        hpairs).symm

/-- **An answered 827**: denied, or the two share a key. -/
theorem Answered.signedIn
    (h : Answered (serveAmid env crypto meanwhile) pf .reconnect s s' c r answer)
    (hholds : Holds pf publicKey k s.client)
    (hpairs : ∀ row, (meanwhile s.server.state.round s.server.state.world).clients.find?
      (·.uuid = r.clientID) = some row → Pairs pf crypto row.publicKey k) :
    s'.client.members.responsePacket.code = ResponseCode.reconnectFailed.value ∨
      Shared r.clientID s' := by
  obtain ⟨response, hserve, hbuilt⟩ := h.serve_eq
  have hcode : r.received.1.code = Constants.reconnect := h.code_received
  rcases signIn_outcome rfl hcode hserve with rfl | ⟨row, row', hrow, hrow', hagreed, -, -⟩
  · left
    obtain rfl := @build_injective answer ⟨Constants.version, Constants.recconetDenied,
      r.received.1.uid.bytes⟩ _ hbuilt
        (initResponse_uid (show Constants.recconetDenied < 2 ^ 16 by decide) _)
    have hlabel : UInt16.ofNat Constants.recconetDenied = ResponseCode.reconnectFailed.value := rfl
    rw [h.noted hlabel (.inr (.inr (.inl rfl)))]
    rfl
  · right
    exact ⟨row', hrow', (h.key_eq hholds .okReconnOutAes hagreed hbuilt rfl (.inr rfl)
      (hpairs row hrow)).symm⟩

/-- What a client has before it uploads: it is signed in and shares a key already, or
it will offer the key that belongs to its `key.priv`. -/
structure KeysReady (pf : Platform K) (crypto : Crypto) (uid : Uid) (publicKey : Bytes) (k : K)
    (s : Linked K Amid) : Prop where
  returning : s.client.members.registeredClient = true → Shared uid s
  newcomer : s.client.members.registeredClient = false → Holds pf publicKey k s.client ∧
    publicKey.length = Constants.publicKey ∧ Pairs pf crypto publicKey k

/-- The key exchange of `uploadFile`. -/
theorem triple_exchangeKeys_shared (hspares : Sparing env crypto meanwhile Safe uid name) :
    Triple (Linked.exec (serveAmid env crypto meanwhile))
      (fun s => AtWork Safe uid ti file s ∧ KeysReady pf crypto uid publicKey k s)
      (exchangeKeys pf)
      (fun ok s => if ok then AtWork Safe uid ti file s ∧ Shared uid s else Unconfirmed s)
      Thrown := by
  refine triple_readMembers.bind fun members => ?_
  split
  · next hregistered =>
    intro s hs
    exact ⟨hs.1.1, hs.1.2.returning (hs.2 ▸ hregistered)⟩
  · next hregistered =>
    by_cases hpossible : publicKey.length = Constants.publicKey ∧ Pairs pf crypto publicKey k
    swap
    · -- such a client is not ready
      intro s hs
      have hnewcomer := hs.1.2.newcomer (hs.2 ▸ Bool.not_eq_true _ ▸ hregistered)
      exact absurd hnewcomer.2 hpossible
    have hexchange : Triple (Linked.exec (serveAmid env crypto meanwhile))
        (fun s => AtWork Safe uid ti file s ∧ Holds pf publicKey k s.client)
        (sendAndRecieve pf .sPublicKey)
        (fun _ s => (AtWork Safe uid ti file s ∧ Holds pf publicKey k s.client) ∧ Unconfirmed s ∧
          (s.client.members.responsePacket.code ≠ ResponseCode.generalErr.value → Shared uid s))
        Thrown := by
      refine triple_exchange (polite_serveAmid env crypto meanwhile) (by decide)
        (fun s hs => hs.1.inStep) fun s s' c r answer hs hin hanswered => ?_
      obtain ⟨hwork, hclient, hcode⟩ := hanswered.atWork hspares hs.1 hin (by decide) (by decide)
      refine ⟨⟨hwork, hanswered.holds hs.2⟩, ?_, fun hnot => ?_⟩
      · rw [Unconfirmed, hcode]
        decide
      · exact (hanswered.offered hclient hs.2 hpossible.1 hpossible.2).resolve_left hnot
    refine (hexchange.imp (fun s hs => ⟨hs.1.1, ?_⟩) (fun _ _ hs => hs) fun _ _ hs => hs).bind
      fun _ => (triple_resends .sPublicKey
        (hexchange.imp (fun s hs => hs.1) (fun _ _ hs => hs) fun _ _ hs => hs)).imp
        (fun _ hs => hs) (fun ok s hs => ?_) fun _ _ hs => hs
    · exact (hs.1.2.newcomer (hs.2 ▸ Bool.not_eq_true _ ▸ hregistered)).1
    · cases ok with
      | true => exact ⟨hs.1.1.1, hs.1.2.2 (hs.2.mp rfl)⟩
      | false => exact hs.1.2.1

end Keys

/-! ## Whole operations -/

/-- A registration that returns true was answered with a 1600. -/
theorem triple_registers {K σ : Type} (select : Header → Bytes → σ → Except Raised Handled × σ)
    (pf : Platform K) :
    Triple (Linked.exec select) (fun _ => True) (registerNewClient pf)
      (fun ok s => ok = true →
        s.client.members.responsePacket.code = ResponseCode.regSuccessful.value) Thrown := by
  have hany : Triple (Linked.exec select) (fun _ => True) (sendAndRecieve pf .register)
      (fun _ _ => True) Thrown := by
    intro s _
    rcases Program.run (Linked.exec select) (sendAndRecieve pf .register) s with ⟨e | b, s'⟩
    · trivial
    · trivial
  refine Program.Triple.tryCatch (?_ : Triple _ _ _ _ fun _ _ => True) fun e => ?_
  · refine hany.bind fun _ => triple_responseCode.bind fun label => ?_
    split
    · refine triple_readMembers.bind fun c => ?_
      cases inBounds (uidOf c.responsePacket.payload) with
      | error e => exact fun s _ => trivial
      | ok clientID =>
        intro s hs _
        obtain ⟨⟨-, hlabel⟩, rfl⟩ := hs
        exact (ResponseCode.ofValue_eq_some.mp hlabel.symm).symm
    · exact fun s _ hfalse => by cases hfalse
  · cases e with
    | exception => exact fun s _ hfalse => by cases hfalse
    | errorCode => exact fun s _ => trivial
    | outOfBounds => exact fun s _ => trivial

/-- **Signing in leaves one key on both sides**: where `signIn` returns true behind a
1605, the row of the client holds the AES key that the client decrypted, if its
`key.priv` belongs to the public key that the server has of it. -/
theorem sign_in_shares_key {K : Type} {pf : Platform K} {env : Env} {crypto : Crypto}
    {others : Nat → List (Header × Bytes)} {operations : List Operation} {start : Process K}
    {room : Nat} {w : World} {publicKey : Bytes} {k : K} {s s' : Linked K Amid}
    (hs : s = Linked.callAll
      (serveAmid env crypto fun n w => handleAll env crypto w (others n)) pf operations
      (Linked.connect start room ⟨w, 0⟩))
    (hothers : ∀ n, ∀ j ∈ others n,
      OfAnother s'.client.members.requestPacket.clientID j.1 j.2)
    (hsafe : SafeFor s'.client.members.requestPacket.clientID s.server.state.world)
    (hholds : Holds pf publicKey k s.client)
    (hpairs : ∀ row, s.server.state.world.clients.find?
        (·.uuid = s'.client.members.requestPacket.clientID) = some row →
      Pairs pf crypto row.publicKey k)
    (hrun : Program.run (Linked.exec
        (serveAmid env crypto fun n w => handleAll env crypto w (others n))) (Client.signIn pf) s =
      (.ok true, s'))
    (hcode : s'.client.members.responsePacket.code = ResponseCode.okReconnOutAes.value) :
    Shared s'.client.members.requestPacket.clientID s' := by
  have hpolite := polite_serveAmid env crypto fun n w => handleAll env crypto w (others n)
  have hin : InStep s := by
    rw [hs]
    exact inStep_callAll pf hpolite operations start room ⟨w, 0⟩
  have hspares := @sparing_others env crypto _ ['f'] others hothers (by decide)
  generalize (fun n w => handleAll env crypto w (others n)) = meanwhile at *
  rw [Client.signIn, Cpp.catchException, Program.run_tryCatch, Program.run_bind] at hrun
  rcases hexchange : Program.run (Linked.exec (serveAmid env crypto meanwhile))
      (sendAndRecieve pf .reconnect) s with ⟨e | b, t⟩
  · rw [hexchange] at hrun
    cases e <;> cases hrun
  rw [hexchange] at hrun
  obtain ⟨c, r, answer, h⟩ := answered_of_ok hpolite hin (by decide) hexchange
  dsimp only at hrun
  rw [Program.run_bind, run_responseCode] at hrun
  dsimp only at hrun
  rcases hlabel : ResponseCode.ofValue t.client.members.responsePacket.code with _ | label
  · rw [hlabel] at hrun
    cases hrun
  rw [hlabel] at hrun
  cases label with
  | reconnectFailed =>
    -- it registers anew, and that is not answered with a 1605
    have hregister := triple_registers (serveAmid env crypto meanwhile) pf t trivial
    dsimp only at hrun
    rcases hanew : Program.run (Linked.exec (serveAmid env crypto meanwhile))
        (registerNewClient pf) t with ⟨e | b, t'⟩
    · rw [hanew] at hrun
      cases e <;> cases hrun
    · rw [hanew] at hrun hregister
      cases hrun
      have hsuccess := hregister rfl
      rw [hcode] at hsuccess
      exact absurd hsuccess (by decide)
  | okReconnOutAes =>
    have hclient : t.client.members.requestPacket.clientID = r.clientID := h.clientID_eq
    have hanswer := ResponseCode.ofValue_eq_some.mp hlabel
    have hstate : s' = { t with client := { t.client with
        members := { t.client.members with registeredClient := true } } } :=
      (congrArg Prod.snd hrun).symm
    have hid : s'.client.members.requestPacket.clientID = r.clientID := by
      rw [hstate]
      exact hclient
    rw [hid] at hpairs hsafe hspares ⊢
    have hshared := (h.signedIn hholds fun row hrow =>
      hpairs row ((hspares.spares _ _ hsafe).client.symm.trans hrow)).resolve_left fun hdenied => by
        rw [← hanswer] at hdenied
        exact absurd hdenied (by decide)
    rw [hstate]
    exact hshared
  | _ => cases hrun

/-- A platform that opens what `toyCrypto` seals, with any key. -/
def openPlatform : Platform Bytes :=
  { swapPlatform with
    rsa := { toyPlatform.rsa with oaepDecrypt := fun _ cipher => some (cipher.drop 20) } }

theorem openPlatform_pairs (publicKey k : Bytes) : Pairs openPlatform toyCrypto publicKey k := by
  intro rsaKey seed message cipher _ hseed _ hcipher
  cases hcipher
  exact congrArg some (List.drop_left' hseed)

/-- The client of `senderRow`, back with the files of its registration. -/
def registeredSender : Process Bytes :=
  toyProcess [1] (fun name =>
    if name = meInfo then some ([0x75, 0x0a] ++ toHex (Uid.ofNat 1).bytes ++ [0x0a, 1])
    else if name = keyPriv then some [1] else none) []

/-- What `signIn` of that client comes to. -/
def returningSignIn : Except Fault Bool × Linked Bytes Amid :=
  Program.run (Linked.exec (serveAmid (.calm Uid.ofNat) toyCrypto fun n w =>
      handleAll (.calm Uid.ofNat) toyCrypto w (rivalUploads n)))
    (Client.signIn openPlatform) (Linked.connect registeredSender 100000 ⟨sharedWorld, 0⟩)

theorem registeredSender_shares_key : ∃ s', returningSignIn = (.ok true, s') ∧
    Shared s'.client.members.requestPacket.clientID s' := by
  have hends : (match returningSignIn with
      | (.ok true, s') =>
        s'.client.members.responsePacket.code == ResponseCode.okReconnOutAes.value &&
          s'.client.members.requestPacket.clientID == Uid.ofNat 1
      | (.ok false, _) => false
      | (.error _, _) => false) = true := by decide +kernel
  rcases hrun : returningSignIn with ⟨e | _ | _, s'⟩
  · rw [hrun] at hends
    cases hends
  · rw [hrun] at hends
    cases hends
  · rw [hrun] at hends
    obtain ⟨hcode, hclient⟩ := (Bool.and_eq_true _ _).mp hends
    replace hclient := beq_iff_eq.mp hclient
    exact ⟨s', rfl, @sign_in_shares_key Bytes openPlatform (.calm Uid.ofNat) toyCrypto rivalUploads
      [] registeredSender 100000 sharedWorld (0x50 :: [1]) ([1] : Bytes)
      (Linked.connect registeredSender 100000 ⟨sharedWorld, 0⟩) s' rfl
      (rivalUploads_ofAnother (by rw [hclient]; decide)) (by rw [hclient]; exact sharedWorld_safe)
      ⟨rfl, [1], rfl, rfl⟩ (fun row _ => openPlatform_pairs _ _) hrun (beq_iff_eq.mp hcode)⟩

/-- **A confirmed upload is stored byte for byte**, if the keys were in order: the
client had signed in and shared the key of the server, or it offered the public key
that belongs to its `key.priv`. -/
theorem confirmed_upload_exact {K : Type} {pf : Platform K} {env : Env} {crypto : Crypto}
    {others : Nat → List (Header × Bytes)} {operations : List Operation} {start : Process K}
    {room : Nat} {w : World} {name : Str} {file : Bytes} {k : K} {s s' : Linked K Amid}
    (hs : s = Linked.callAll
      (serveAmid env crypto fun n w => handleAll env crypto w (others n)) pf operations
      (Linked.connect start room ⟨w, 0⟩))
    (hname : EndsIn s.client.members.requestHandler.transferInfo name) (hplain : Plain name)
    (hfile : s.client.folder.file s.client.members.requestHandler.transferInfo.path = some file)
    (hothers : ∀ n, ∀ j ∈ others n,
      OfAnother s.client.members.requestPacket.clientID j.1 j.2)
    (hsafe : SafeFor s.client.members.requestPacket.clientID s.server.state.world)
    (hkeys : KeysReady pf crypto s.client.members.requestPacket.clientID
      s.client.members.publicKey k s)
    (hAES : ∀ key : Bytes, key.length = 32 →
      Inverts 16 (pf.aesEncryptBlock key) (crypto.aesDecryptBlock key))
    (hw : 32 ≤ pf.longBits)
    (hrun : Program.run (Linked.exec
        (serveAmid env crypto fun n w => handleAll env crypto w (others n))) (uploadFile pf) s =
      (.ok .returned, s'))
    (hlast : s'.client.members.requestPacket.code = RequestCode.validCrc.value) :
    Backed env s.client.members.requestPacket.clientID name (· = file)
      (fun frow => s'.client.members.responsePacket.code = ResponseCode.msgRecieved.value →
        frow.fileName = name → frow.verified = 1) s'.server.state.world := by
  have hin : InStep s := by
    rw [hs]
    exact inStep_callAll pf (polite_serveAmid env crypto _) operations start room ⟨w, 0⟩
  have hspares := @sparing_others env crypto _ name others hothers hplain
  obtain ⟨key, row, hshared, hdone⟩ := acknowledged_of_uploadFile hname hspares hAES hw
    (R := fun key row => ∃ r, row = some r ∧ r.aesKey = key)
    (triple_exchangeKeys_shared hspares) ⟨⟨hin, hsafe, rfl, rfl, hfile⟩, hkeys⟩ hrun hlast
  obtain ⟨r, hrow, hkey⟩ := hshared
  obtain ⟨⟨row', content, hrow', hstored, -, hexact⟩, hlisted⟩ := hdone.backed
  exact ⟨⟨row', content, hrow', hstored, hexact r hrow hkey⟩, hlisted⟩

theorem returningSender_keysReady :
    KeysReady swapPlatform toyCrypto (Uid.ofNat 1) (0x50 :: [1]) ([1] : Bytes)
      (Linked.connect returningSender 100000 ⟨sharedWorld, 0⟩) :=
  ⟨fun _ => ⟨senderRow, rfl, rfl⟩, fun hnew => by cases hnew⟩

theorem returningSender_upload_exact : ∃ s', returningUpload = (.ok .returned, s') ∧
    Backed (.calm Uid.ofNat) (Uid.ofNat 1) ['f'] (· = [0x76, 0x31])
      (fun frow => s'.client.members.responsePacket.code = ResponseCode.msgRecieved.value →
        frow.fileName = ['f'] → frow.verified = 1) s'.server.state.world := by
  obtain ⟨s', hrun, hlast, -⟩ := returningUpload_returned
  exact ⟨s', hrun, @confirmed_upload_exact Bytes swapPlatform (.calm Uid.ofNat) toyCrypto
    rivalUploads [] returningSender 100000 sharedWorld ['f'] [0x76, 0x31] ([1] : Bytes)
    (Linked.connect returningSender 100000 ⟨sharedWorld, 0⟩) s' rfl sender_endsIn (by decide) rfl
    (rivalUploads_ofAnother (by decide)) sharedWorld_safe returningSender_keysReady
    (fun _ _ => swapBlock_inverts) (by decide) hrun hlast⟩

end FileTransfer.EndToEnd
