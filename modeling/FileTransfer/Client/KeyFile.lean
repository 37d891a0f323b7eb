import FileTransfer.Client.Identity

/-!
# Whose public key the client sends

A process generates a key pair and sends the public key of it; `key.priv` is written
once, by the first process that is registered, and is what a 1602 is decrypted with.
`sent_key_is_saved` says when the two belong together.
-/

namespace FileTransfer.Client

open FileTransfer.Effect FileTransfer.History FileTransfer.Server
open Program (Triple)

variable {K : Type} {pf : Platform K}

/-! ## What the log says about the keys -/

/-- The last start, after one more event. -/
def noteStart (last : Option (Bytes × Folder)) : Event → Option (Bytes × Folder)
  | .started userName folder => some (userName, folder)
  | _ => last

/-- The user name of the last process that was started, and the folder it found. -/
def lastStart (log : List Event) : Option (Bytes × Folder) := log.foldl noteStart none

@[simp] theorem lastStart_concat (log : List Event) (event : Event) :
    lastStart (log ++ [event]) = noteStart (lastStart log) event :=
  List.foldl_concat ..

/-- `key.priv` holds the private key of the public key in the packet. -/
def KeyFileMatches (rsa : Rsa K) (past : List Event) (packet : RequestPacket)
    (folder : Folder) : Prop :=
  ∃ start ∈ lastStart past, ∃ key ∈ folder.file keyPriv,
    ∃ privateKey ∈ rsa.loadPrivateKeyFromBase64 key,
      packet.payload = start.1 ++ [0] ++ rsa.derPublic privateKey

/-- The process found no `key.priv`, and now there is one. -/
def KeySaved (past : List Event) (folder : Folder) : Prop :=
  ∃ start ∈ lastStart past,
    start.2.file keyPriv = none ∧ (folder.file keyPriv).isSome

/-- A 826 under a known ID, and what is to hold of it. -/
def KnownKey (known : List Event → Uid → Prop)
    (P : List Event → RequestPacket → Folder → Prop) (past : List Event)
    (packet : RequestPacket) (folder : Folder) : Prop :=
  packet.code = RequestCode.sPublicKey.value → known past packet.clientID →
    P past packet folder

instance (rsa : Rsa K) (past : List Event) (packet : RequestPacket) (folder : Folder) :
    Decidable (KeyFileMatches rsa past packet folder) :=
  inferInstanceAs (Decidable (∃ start ∈ lastStart past, _))

instance (past : List Event) (folder : Folder) : Decidable (KeySaved past folder) :=
  inferInstanceAs (Decidable (∃ start ∈ lastStart past, _))

instance (known : List Event → Uid → Prop) (P : List Event → RequestPacket → Folder → Prop)
    [∀ past clientID, Decidable (known past clientID)]
    [∀ past packet folder, Decidable (P past packet folder)]
    (past : List Event) (packet : RequestPacket) (folder : Folder) :
    Decidable (KnownKey known P past packet folder) :=
  inferInstanceAs (Decidable (_ → _ → _))

/-- With the matching `key.priv` the AES key of a 1602 is recovered. -/
theorem run_decryptAESKey {rsa : Rsa K} {s : Process K} {key cipher decrypted : Bytes}
    {privateKey : K} (hopens : s.folder.opens 0 = true) (hkey : s.folder.file keyPriv = some key)
    (hload : rsa.loadPrivateKeyFromBase64 key = some privateKey)
    (hdecrypt : rsa.oaepDecrypt privateKey cipher = some decrypted)
    (hlength : decrypted.length = 32) :
    (Program.run exec (decryptAESKey rsa (some cipher)) s).1 = .ok true ∧
      (Program.run exec (decryptAESKey rsa (some cipher)) s).2.members.requestHandler.eh =
        ⟨decrypted, hlength⟩ := by
  have hread : s.folder.ifstream keyPriv = some key := by rw [Folder.ifstream, if_pos hopens, hkey]
  simp [decryptAESKey, readPrivateRsaKey, hread, hload, hdecrypt, hlength]

/-! ## The key pair of a process -/

/-- Where the public key of the process comes from, and where the private key is, if
there was no `key.priv` at the start. -/
structure KeyPair (rsa : Rsa K) (start : Bytes × Folder) (privateKey : K) (s : Process K) :
    Prop where
  started : lastStart s.log = some start
  userName : s.members.userName = start.1
  publicKey : s.members.publicKey = rsa.derPublic privateKey
  saved : start.2.file keyPriv = none →
    s.folder.file keyPriv = none ∧ s.members.privateKey = privateKey ∨
      s.folder.file keyPriv = some (rsa.encodedPrivateKey privateKey)

section KeyPair

variable {code : RequestCode} {s s₁ s' : Process K} {r : Except Fault Bool} {rsa : Rsa K}
  {start : Bytes × Folder} {privateKey : K} {connection : ConnectionHandler}
  {packet : ResponsePacket}

theorem KeyPair.loads (hs : KeyPair rsa start privateKey s) (h : Loads code s r s') :
    KeyPair rsa start privateKey s' := by
  cases h <;> exact ⟨hs.started, hs.userName, hs.publicKey, hs.saved⟩

theorem KeyPair.sends (hs : KeyPair rsa start privateKey s) :
    KeyPair rsa start privateKey (s.sends connection) := by
  refine ⟨?_, hs.userName, hs.publicKey, hs.saved⟩
  rw [Process.sends, lastStart_concat]
  exact hs.started

theorem KeyPair.misses (hs : KeyPair rsa start privateKey s) :
    KeyPair rsa start privateKey (s.misses packet connection) :=
  ⟨hs.started, hs.userName, hs.publicKey, hs.saved⟩

theorem KeyPair.receives (hs : KeyPair rsa start privateKey s) :
    KeyPair rsa start privateKey (s.receives packet connection) := by
  refine ⟨?_, hs.userName, hs.publicKey, hs.saved⟩
  rw [Process.receives, lastStart_concat]
  exact hs.started

/-- `key.priv` is written from the member, and read back into it. -/
theorem KeyPair.reacts (hs : KeyPair pf.rsa start privateKey s) (h : Reacts pf s r s') :
    KeyPair pf.rsa start privateKey s' := by
  cases h with
  | created _ hfree _ =>
    refine ⟨hs.started, hs.userName, hs.publicKey, fun hbegan => Or.inr ?_⟩
    rcases hs.saved hbegan with ⟨-, hmember⟩ | hfile
    · simp [hmember]
    · simp [hfree] at hfile
  | uncreated hfile =>
    refine ⟨hs.started, hs.userName, hs.publicKey, fun hbegan => ?_⟩
    rcases hfile with rfl | ⟨hfree, rfl⟩
    · exact hs.saved hbegan
    · rcases hs.saved hbegan with ⟨-, hmember⟩ | hfile
      · exact Or.inr (by simp [hmember])
      · simp [hfree] at hfile
  | unlocked _ _ _ hkey =>
    refine ⟨hs.started, hs.userName, hs.publicKey, fun hbegan => ?_⟩
    rcases hs.saved hbegan with ⟨hfree, hmember⟩ | hfile
    · rcases hkey with rfl | ⟨key, hfile, -⟩
      · exact Or.inl ⟨hfree, hmember⟩
      · simp [hfree] at hfile
    · exact Or.inr hfile
  | _ => exact ⟨hs.started, hs.userName, hs.publicKey, hs.saved⟩

/-- **An exchange leaves the key pair in order**, whatever comes of it. -/
theorem KeyPair.exchange (hs : KeyPair pf.rsa start privateKey s) (h : Exchange pf code s r s') :
    KeyPair pf.rsa start privateKey s' := by
  cases h with
  | unbuilt => exact ⟨hs.started, hs.userName, hs.publicKey, hs.saved⟩
  | unsent hloads => exact (hs.loads hloads).sends
  | oneWay _ hloads => exact (hs.loads hloads).sends
  | unanswered hloads => exact (hs.loads hloads).sends.misses
  | rejected hloads _ hreacts => exact (hs.loads hloads).sends.receives.reacts hreacts
  | accepted _ hloads hreacts => exact (hs.loads hloads).sends.receives.reacts hreacts

/-- A 826 of a process that saved its key carries the public key of `key.priv`. -/
theorem KeyPair.keyFileMatches
    (hload : ∀ k, rsa.loadPrivateKeyFromBase64 (rsa.encodedPrivateKey k) = some k)
    (hs : KeyPair rsa start privateKey s) (h : Loads code s (.ok true) s₁)
    (hcode : s₁.members.requestPacket.code = RequestCode.sPublicKey.value)
    (hsaved : KeySaved s.log s₁.folder) :
    KeyFileMatches rsa s.log s₁.members.requestPacket s₁.folder := by
  obtain ⟨start', hstart, hbegan, hfile⟩ := hsaved
  obtain rfl : start' = start := Option.some.inj (hstart.symm.trans hs.started)
  rw [h.code_eq] at hcode
  have hpayload := h.toBuilt.publicKey (RequestCode.value_injective hcode)
  rw [hs.userName, hs.publicKey] at hpayload
  rw [h.file_eq] at hfile
  rcases hs.saved hbegan with ⟨hfree, -⟩ | hkey
  · simp [hfree] at hfile
  · refine ⟨start', hstart, _, ?_, privateKey, hload privateKey, hpayload⟩
    rw [h.file_eq]
    exact hkey

end KeyPair

/-! ## The operations -/

/-- The 826s of the log are in order. -/
abbrev KeysSent (rsa : Rsa K) (log : List Event) : Prop :=
  EachSent (fun past packet folder => packet.code = RequestCode.sPublicKey.value →
    KeySaved past folder → KeyFileMatches rsa past packet folder) log

/-- And so is the key pair of the process. -/
def KeysInOrder (rsa : Rsa K) (s : Process K) : Prop :=
  KeysSent rsa s.log ∧ ∃ start privateKey, KeyPair rsa start privateKey s

/-- The key pair is not what an operation changes between its exchanges. -/
theorem keysInOrder_undisturbed : Undisturbed (KeysInOrder rsa) where
  clientID := by
    intro s id hs
    obtain ⟨hlog, start, privateKey, hpair⟩ := hs
    exact ⟨hlog, start, privateKey, hpair.started, hpair.userName, hpair.publicKey, hpair.saved⟩
  registeredClient := by
    intro s hs
    obtain ⟨hlog, start, privateKey, hpair⟩ := hs
    exact ⟨hlog, start, privateKey, hpair.started, hpair.userName, hpair.publicKey, hpair.saved⟩
  returned := by
    intro s value hs
    obtain ⟨hlog, start, privateKey, hpair⟩ := hs
    refine ⟨eachSent_returned.mpr hlog, start, privateKey, ?_, hpair.userName, hpair.publicKey,
      hpair.saved⟩
    rw [lastStart_concat]
    exact hpair.started
  ended := by
    intro s hs
    obtain ⟨hlog, start, privateKey, hpair⟩ := hs
    exact ⟨hlog, start, privateKey, hpair.started, hpair.userName, hpair.publicKey, hpair.saved⟩

section Operations

variable (hload : ∀ k, pf.rsa.loadPrivateKeyFromBase64 (pf.rsa.encodedPrivateKey k) = some k)
include hload

theorem triple_keysInOrder (code : RequestCode) :
    Triple exec (KeysInOrder pf.rsa) (sendAndRecieve pf code) (fun _ => KeysInOrder pf.rsa)
      fun _ => KeysInOrder pf.rsa := by
  have hkeeps : ∀ s s' r, KeysInOrder pf.rsa s → Exchange pf code s r s' →
      KeysInOrder pf.rsa s' := by
    rintro s s' r ⟨hlog, start, privateKey, hs⟩ h
    refine ⟨hlog.exchange h fun s₁ hloads hcode hsaved => ?_, start, privateKey, hs.exchange h⟩
    exact hs.keyFileMatches hload hloads hcode hsaved
  exact triple_sendAndRecieve code (fun s s' b hs h => hkeeps s s' _ hs h)
    fun s s' e hs h => hkeeps s s' _ hs h

theorem keysInOrder_call (operation : Operation) {s : Process K} (hs : KeysInOrder pf.rsa s) :
    KeysInOrder pf.rsa (operation.call pf s) :=
  keysInOrder_undisturbed.call (triple_keysInOrder hload) operation hs

end Operations

/-! ## A whole life -/

/-- What holds between two actions. -/
def KeysLive (rsa : Rsa K) (s : Process K) : Prop :=
  KeysSent rsa s.log ∧ (s.running = true → KeysInOrder rsa s)

/-- What one action keeps. -/
theorem KeysLive.step {e : Step K}
    (hload : ∀ k, pf.rsa.loadPrivateKeyFromBase64 (pf.rsa.encodedPrivateKey k) = some k)
    (he : e.Happens pf) (hs : KeysLive pf.rsa e.before) : KeysLive pf.rsa e.after := by
  obtain ⟨hallowed, hafter⟩ := he
  rw [hafter]
  cases haction : e.action with
  | start privateKey transferInfo userName memory connection =>
    have hlog : KeysSent pf.rsa (e.before.log ++ [.started userName e.before.folder]) :=
      eachSent_started.mpr hs.1
    refine ⟨hlog, fun _ => ⟨hlog, (userName, e.before.folder), privateKey, ?_, rfl, rfl, ?_⟩⟩
    · simp [Action.perform, noteStart]
    · exact fun hbegan => Or.inl ⟨hbegan, rfl⟩
  | call operation =>
    rw [haction] at hallowed
    have h := keysInOrder_call hload operation (hs.2 hallowed)
    exact ⟨h.1, fun _ => h⟩

/-- **The public key that is sent is that of `key.priv`**: in every life, over any
starts and any responses, if every 826 under a known ID is sent by a process that found
no `key.priv` and has saved its own, then each one carries the public key that belongs
to the private key in `key.priv`. -/
theorem sent_key_is_saved {known : List Event → Uid → Prop} {folder : Folder}
    {memory : Members K} {connection : ConnectionHandler} {es : List (Step K)} {s : Process K}
    (hload : ∀ k, pf.rsa.loadPrivateKeyFromBase64 (pf.rsa.encodedPrivateKey k) = some k)
    (h : Life pf (beforeStart folder memory connection) es s)
    (hsaved : EachSent (KnownKey known fun past _ folder => KeySaved past folder) s.log) :
    EachSent (KnownKey known (KeyFileMatches pf.rsa)) s.log := by
  have hlive : KeysLive pf.rsa s :=
    h.invariant ⟨eachSent_nil, nofun⟩ fun e he hs => hs.step hload he
  intro past event rest heq packet folder hevent hcode hknown
  exact hlive.1 past event rest heq packet folder hevent hcode
    (hsaved past event rest heq packet folder hevent hcode hknown)

/-- The first life of a client: it saves its key, and sends the public key of it. -/
theorem newcomer_sends_saved_key :
    ∃ s, newcomer = some s ∧ s.log.length = 17 ∧
      EachSent (KnownKey (fun _ _ => True) (KeyFileMatches toyPlatform.rsa)) s.log := by
  have hrun : newcomer.any (fun s => s.log.length = 17 ∧
      EachSent (KnownKey (fun _ _ => True) fun past _ folder => KeySaved past folder) s.log) := by
    decide +kernel
  obtain ⟨s, hs, hlog⟩ := (Option.any_eq_true ..).mp hrun
  obtain ⟨hlength, hsaved⟩ := of_decide_eq_true hlog
  obtain ⟨es, hlife⟩ := life_follow .start hs
  exact ⟨s, hs, hlength, sent_key_is_saved (fun _ => rfl) hlife hsaved⟩

/-- The server has given out the ID in a 1600. -/
def GrantedBefore (past : List Event) (clientID : Uid) : Prop :=
  past.any (fun
    | .received response _ => response.code = ResponseCode.regSuccessful.value ∧
        response.payload.take uidSize = clientID.bytes
    | _ => false) = true

instance (past : List Event) (clientID : Uid) : Decidable (GrantedBefore past clientID) :=
  inferInstanceAs (Decidable (_ = true))

/-- A client is registered; its next process cannot sign in, because of a server error,
and uploads all the same. -/
def restarted : Option (Process Bytes) :=
  follow toyPlatform
    [.start [1] ⟨[0x66]⟩ [0x75] uninitialized
      ⟨responseFrame .regSuccessful (List.replicate 16 9), [], 100000, false⟩,
    .call .registerNewClient,
    .start [2] ⟨[0x66]⟩ [0x75] uninitialized
      ⟨responseFrame .generalErr [] ++ toyKeyFrame .inPublicOutCrypted [2], [], 100000, false⟩,
    .call .signIn, .call .uploadFile] (beforeMain fun _ => none)

/-- It installs the public key of a private key that `key.priv` does not hold. -/
theorem restarted_sends_unsaved_key :
    ¬ ∀ es s, Life toyPlatform (beforeMain fun _ => none) es s →
      EachSent (KnownKey GrantedBefore (KeyFileMatches toyPlatform.rsa)) s.log := by
  intro hall
  have hrun : restarted.any (fun s =>
      ¬ EachSent (KnownKey GrantedBefore (KeyFileMatches toyPlatform.rsa)) s.log) := by
    decide +kernel
  obtain ⟨s, hs, hlog⟩ := (Option.any_eq_true ..).mp hrun
  obtain ⟨es, hlife⟩ := life_follow .start hs
  exact of_decide_eq_true hlog (hall es s hlife)

end FileTransfer.Client
