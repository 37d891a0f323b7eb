import FileTransfer.Client.Life

/-!
# Under whose name the client acts

The client ID lives in the one request packet, and three operations write it: a
registration its filler, a sign-in what `me.info` says, and a registration that
succeeded the ID of its 1600. `acts_under_given_id` says when the requests that act
for a client carry an ID that the server gave out.
-/

namespace FileTransfer.Client

open FileTransfer.Effect FileTransfer.History FileTransfer.Server
open Program (Triple)

variable {K : Type} {pf : Platform K}

/-! ## What the log says about the ID -/

/-- The payload of the last 1600, after one more event. -/
def noteGrant (last : Option Bytes) : Event → Option Bytes
  | .started _ _ => none
  | .received response _ =>
    if ResponseCode.ofValue response.code = some .regSuccessful then some response.payload
    else last
  | _ => last

/-- The payload of the last 1600 that this process received. -/
def lastGrant (log : List Event) : Option Bytes := log.foldl noteGrant none

/-- Whether the process has an ID that was given to it, after one more event. -/
def noteIdentity (known : Bool) : Event → Bool
  | .started _ _ => false
  | .sent packet _ =>
    if packet.code = RequestCode.reconnect.value then true
    else if packet.code = RequestCode.register.value then false
    else known
  | .returned true => true
  | _ => known

/-- The last sign-in or registration of this process is a sign-in request, or has
succeeded. -/
def identified (log : List Event) : Bool := log.foldl noteIdentity false

@[simp] theorem lastGrant_concat (log : List Event) (event : Event) :
    lastGrant (log ++ [event]) = noteGrant (lastGrant log) event :=
  List.foldl_concat ..

@[simp] theorem identified_concat (log : List Event) (event : Event) :
    identified (log ++ [event]) = noteIdentity (identified log) event :=
  List.foldl_concat ..

/-- The ID is that of the last 1600, or what the UUID line of `me.info` decodes to. -/
def Given (past : List Event) (clientID : Uid) (folder : Folder) : Prop :=
  (∃ payload ∈ lastGrant past, payload.take uidSize = clientID.bytes) ∨
    folder.clientID = some clientID

/-- The requests that act for a client: 826, 828, 900, 901 and 902. -/
def Acting (packet : RequestPacket) : Prop :=
  ∃ code ∈ [RequestCode.sPublicKey, .sendFile, .validCrc, .nValidCrc, .exitCrc],
    packet.code = code.value

/-- An acting request carries an ID that was given to the client, and not the filler. -/
def UnderGivenID (past : List Event) (packet : RequestPacket) (folder : Folder) : Prop :=
  Acting packet → Given past packet.clientID folder ∧ packet.clientID ≠ ignore

/-- An acting request is sent by a process with an ID, when the filler was not given
out as one. -/
def Identified (past : List Event) (packet : RequestPacket) (folder : Folder) : Prop :=
  Acting packet → identified past = true ∧ ¬ Given past ignore folder

instance (past : List Event) (clientID : Uid) (folder : Folder) :
    Decidable (Given past clientID folder) :=
  inferInstanceAs (Decidable (_ ∨ _))

instance (packet : RequestPacket) : Decidable (Acting packet) :=
  inferInstanceAs (Decidable (∃ code ∈ _, _))

instance (past : List Event) (packet : RequestPacket) (folder : Folder) :
    Decidable (UnderGivenID past packet folder) :=
  inferInstanceAs (Decidable (_ → _))

instance (past : List Event) (packet : RequestPacket) (folder : Folder) :
    Decidable (Identified past packet folder) :=
  inferInstanceAs (Decidable (_ → _))

theorem acting_iff {code : RequestCode} {s s₁ : Process K} (h : Loads code s (.ok true) s₁) :
    Acting s₁.members.requestPacket ↔ code ≠ .register ∧ code ≠ .reconnect := by
  simp only [Acting, h.code_eq]
  cases code <;> decide

/-! ## The files of an identity stay -/

section Files

variable {code : RequestCode} {s s' : Process K} {r : Except Fault Bool}

theorem Loads.file_eq (h : Loads code s r s') : s'.folder.file = s.folder.file := by
  cases h <;> rfl

theorem Folder.clientID_congr {folder folder' : Folder}
    (h : folder'.file meInfo = folder.file meInfo) : folder'.clientID = folder.clientID := by
  simp only [Folder.clientID, h]

/-- An ID stands in a `me.info` that exists. -/
theorem Folder.meInfo_of_clientID {folder : Folder} {id : Uid} (h : folder.clientID = some id) :
    folder.file meInfo ≠ none := by
  intro hnone
  simp [Folder.clientID, hnone, getUUIDandUserName] at h

/-- `me.info` is never overwritten. -/
theorem Reacts.clientID {id : Uid} (h : Reacts pf s r s') (hid : s.folder.clientID = some id) :
    s'.folder.clientID = some id := by
  rw [← hid]
  apply Folder.clientID_congr
  cases h with
  | created _ _ hfree => exact absurd hfree (Folder.meInfo_of_clientID hid)
  | uncreated hfile =>
    rcases hfile with rfl | ⟨-, rfl⟩
    · rfl
    · simp only [Process.withKey, Function.update_of_ne meInfo_ne_keyPriv]
  | _ => rfl

/-- Nor does `key.priv` go away. -/
theorem Reacts.keeps_keyPriv (h : Reacts pf s r s') (hkey : (s.folder.file keyPriv).isSome) :
    (s'.folder.file keyPriv).isSome := by
  cases h with
  | created _ hfree _ => simp [hfree] at hkey
  | uncreated hfile =>
    rcases hfile with rfl | ⟨hfree, -⟩
    · exact hkey
    · simp [hfree] at hkey
  | _ => exact hkey

/-- A 1600 is accepted only where there is no `key.priv`, and leaves one. -/
theorem Reacts.saves_keyPriv (h : Reacts pf s (.ok true) s')
    (hcode : ResponseCode.ofValue s.members.responsePacket.code = some .regSuccessful) :
    s.folder.file keyPriv = none ∧ (s'.folder.file keyPriv).isSome := by
  cases h with
  | noted hlabel hnew _ => exact absurd (Option.some.inj (hlabel.symm.trans hcode)) hnew
  | created _ hfree _ => exact ⟨hfree, by simp⟩
  | unlocked hlabel hnew _ _ => exact absurd (Option.some.inj (hlabel.symm.trans hcode)) hnew
  | compared hlabel _ => exact absurd (hlabel.symm.trans hcode) (by decide)

end Files

/-! ## One request -/

/-- The process has an ID: that of the last 1600, after which `key.priv` is there, or
that of `me.info`. -/
def HasID (s : Process K) : Prop :=
  (∃ payload ∈ lastGrant s.log, payload.take uidSize = s.members.requestPacket.clientID.bytes ∧
      (s.folder.file keyPriv).isSome) ∨
    s.folder.clientID = some s.members.requestPacket.clientID

theorem HasID.given {s : Process K} (h : HasID s) :
    Given s.log s.members.requestPacket.clientID s.folder :=
  h.imp_left fun ⟨payload, hlast, heq, _⟩ => ⟨payload, hlast, heq⟩

/-- The acting requests of the log are in order. -/
abbrev ActsInOrder (log : List Event) : Prop :=
  EachSent (fun past packet folder =>
    Identified past packet folder → UnderGivenID past packet folder) log

/-- What holds of a process between two requests. -/
structure KnowsID (s : Process K) : Prop where
  acts : ActsInOrder s.log
  known : identified s.log = true → HasID s

section Request

variable {code : RequestCode} {s s₁ s' : Process K} {r : Except Fault Bool} {b : Bool}

theorem Loads.toBuilt (h : Loads code s (.ok true) s₁) :
    Built code s s₁.members.requestHandler.filename s₁.members.requestPacket := by
  cases h with
  | built hbuilt => exact hbuilt
  | unbuilt hfalse => exact absurd rfl hfalse

theorem Loads.clientID_eq (h : Loads code s (.ok true) s₁)
    (hacting : Acting s₁.members.requestPacket) :
    s₁.members.requestPacket.clientID = s.members.requestPacket.clientID := by
  obtain ⟨hregister, hreconnect⟩ := (acting_iff h).mp hacting
  have hid := h.toBuilt.clientID
  cases code <;> first | exact hid | contradiction

theorem HasID.loads (hs : HasID s) (h : Loads code s (.ok true) s₁)
    (hacting : Acting s₁.members.requestPacket) : HasID s₁ := by
  rw [HasID, h.log_eq, h.clientID_eq hacting, h.file_eq,
    Folder.clientID_congr (congrFun h.file_eq meInfo)]
  exact hs

/-- A second 1600 is not accepted: the `key.priv` of the first one is there. -/
theorem HasID.reacts {packet : ResponsePacket} {connection connection' : ConnectionHandler}
    (hs : HasID s)
    (h : Reacts pf ((s.sends connection).receives packet connection') (.ok true) s') :
    HasID s' := by
  have hlog : s'.log = s.log ++ [.sent s.members.requestPacket s.folder] ++
      [.received packet s.folder] := h.log_eq
  have hrequest : s'.members.requestPacket = s.members.requestPacket := h.requestPacket_eq
  rcases hs with ⟨payload, hlast, heq, hkey⟩ | hid
  · refine Or.inl ⟨payload, ?_, by rw [hrequest]; exact heq, h.keeps_keyPriv hkey⟩
    have hcode : ResponseCode.ofValue packet.code ≠ some .regSuccessful := by
      intro hcode
      have hfree : s.folder.file keyPriv = none := (h.saves_keyPriv hcode).1
      simp [hfree] at hkey
    rw [hlog, lastGrant_concat, lastGrant_concat, noteGrant, if_neg hcode]
    exact hlast
  · refine Or.inr ?_
    rw [hrequest]
    exact h.clientID hid

/-- Whatever comes of it, a request is sent under the ID of the process. -/
theorem Exchange.acts (h : Exchange pf code s r s') (hs : KnowsID s) : ActsInOrder s'.log := by
  apply hs.acts.exchange h
  intro s₁ hloads hid hacting
  obtain ⟨hknown, hfiller⟩ := hid hacting
  have hgiven := ((hs.known hknown).loads hloads hacting).given
  rw [hloads.log_eq] at hgiven
  refine ⟨hgiven, fun heq => hfiller ?_⟩
  rwa [heq] at hgiven

/-- An acting request that is answered leaves the process its ID. -/
theorem Exchange.hasID (h : Exchange pf code s (.ok b) s') (hregister : code ≠ .register)
    (hreconnect : code ≠ .reconnect) (hs : HasID s) : HasID s' := by
  cases h with
  | oneWay _ hloads =>
    have hs₁ := hs.loads hloads ((acting_iff hloads).mpr ⟨hregister, hreconnect⟩)
    simpa [HasID, Process.sends, noteGrant] using hs₁
  | accepted _ hloads hreacts =>
    exact (hs.loads hloads ((acting_iff hloads).mpr ⟨hregister, hreconnect⟩)).reacts hreacts

/-- Nothing is sent, or the packet that was built stays, and so does `me.info`. -/
theorem Exchange.built (h : Exchange pf code s r s') :
    (∃ e opens, r = .error e ∧ s' = { s with folder := { s.folder with opens := opens } }) ∨
    ∃ s₁, Loads code s (.ok true) s₁ ∧
      s'.members.requestPacket = s₁.members.requestPacket ∧
      (∀ id, s₁.folder.clientID = some id → s'.folder.clientID = some id) ∧
      (s'.log = s.log ++ [Event.sent s₁.members.requestPacket s₁.folder] ∨
        ∃ packet, s'.log = s.log ++ [Event.sent s₁.members.requestPacket s₁.folder] ++
          [Event.received packet s₁.folder]) := by
  cases h with
  | unbuilt => exact .inl ⟨_, _, rfl, rfl⟩
  | unsent hloads =>
    exact .inr ⟨_, hloads, rfl, fun _ hid => hid, .inl (by rw [← hloads.log_eq]; rfl)⟩
  | oneWay _ hloads =>
    exact .inr ⟨_, hloads, rfl, fun _ hid => hid, .inl (by rw [← hloads.log_eq]; rfl)⟩
  | unanswered hloads =>
    exact .inr ⟨_, hloads, rfl, fun _ hid => hid, .inl (by rw [← hloads.log_eq]; rfl)⟩
  | rejected hloads _ hreacts =>
    exact .inr ⟨_, hloads, hreacts.requestPacket_eq, fun _ hid => hreacts.clientID hid,
      .inr ⟨_, by rw [hreacts.log_eq, ← hloads.log_eq]; rfl⟩⟩
  | accepted _ hloads hreacts =>
    exact .inr ⟨_, hloads, hreacts.requestPacket_eq, fun _ hid => hreacts.clientID hid,
      .inr ⟨_, by rw [hreacts.log_eq, ← hloads.log_eq]; rfl⟩⟩

/-- A registration that is sent makes the process forget its ID. -/
theorem Exchange.registers (h : Exchange pf .register s r s') :
    (∃ e opens, r = .error e ∧ s' = { s with folder := { s.folder with opens := opens } }) ∨
      identified s'.log = false ∧ s'.members.requestPacket.clientID = ignore := by
  rcases h.built with hsame | ⟨s₁, hloads, hrequest, -, hlog⟩
  · exact .inl hsame
  · refine .inr ⟨?_, hrequest ▸ hloads.toBuilt.clientID⟩
    have hforgets :
        identified (s.log ++ [.sent s₁.members.requestPacket s₁.folder]) = false := by
      rw [identified_concat, noteIdentity, hloads.code_eq]
      rfl
    rcases hlog with hlog | ⟨packet, hlog⟩
    · rw [hlog]
      exact hforgets
    · rw [hlog, identified_concat]
      exact hforgets

/-- A sign-in that is sent carries the ID of `me.info`. -/
theorem Exchange.signsIn (h : Exchange pf .reconnect s r s') :
    (∃ e opens, r = .error e ∧ s' = { s with folder := { s.folder with opens := opens } }) ∨
      s'.folder.clientID = some s'.members.requestPacket.clientID := by
  rcases h.built with hsame | ⟨s₁, hloads, hrequest, hinfo, -⟩
  · exact .inl hsame
  · refine .inr (hinfo _ ?_)
    rw [hrequest, Folder.clientID_congr (congrFun hloads.file_eq meInfo)]
    exact hloads.toBuilt.clientID

theorem KnowsID.registers (hs : KnowsID s) (h : Exchange pf .register s r s') : KnowsID s' := by
  refine ⟨h.acts hs, ?_⟩
  rcases h.registers with ⟨_, _, -, rfl⟩ | ⟨hforgets, -⟩
  · exact hs.known
  · intro hknown
    rw [hforgets] at hknown
    cases hknown

theorem KnowsID.signsIn (hs : KnowsID s) (h : Exchange pf .reconnect s r s') : KnowsID s' := by
  refine ⟨h.acts hs, ?_⟩
  rcases h.signsIn with ⟨_, _, -, rfl⟩ | hid
  · exact hs.known
  · exact fun _ => Or.inr hid

theorem Exchange.signedIn (h : Exchange pf .reconnect s (.ok b) s') :
    s'.folder.clientID = some s'.members.requestPacket.clientID := by
  rcases h.signsIn with ⟨_, _, herror, -⟩ | hid
  · cases herror
  · exact hid

theorem Exchange.identified_eq (h : Exchange pf code s r s') (hregister : code ≠ .register)
    (hreconnect : code ≠ .reconnect) : identified s'.log = identified s.log := by
  rcases h.logged with hlog | ⟨s₁, hloads, hlog⟩
  · rw [hlog]
  · have hsent : identified (s.log ++ [.sent s₁.members.requestPacket s₁.folder]) =
        identified s.log := by
      rw [identified_concat, noteIdentity, hloads.code_eq,
        if_neg (fun heq => hreconnect (RequestCode.value_injective heq)),
        if_neg (fun heq => hregister (RequestCode.value_injective heq))]
    rcases hlog with hlog | ⟨packet, hlog⟩
    · rw [hlog, hsent]
    · rw [hlog, identified_concat]
      exact hsent

/-- An acting request that is answered leaves everything in order. -/
theorem KnowsID.exchange (hs : KnowsID s) (h : Exchange pf code s (.ok b) s')
    (hregister : code ≠ .register) (hreconnect : code ≠ .reconnect) : KnowsID s' := by
  refine ⟨h.acts hs, fun hknown => ?_⟩
  rw [h.identified_eq hregister hreconnect] at hknown
  exact h.hasID hregister hreconnect (hs.known hknown)

/-- A registration answered by a 1600 has an ID to take, and `key.priv` is there. -/
theorem Exchange.grants (h : Exchange pf .register s (.ok b) s')
    (hcode : ResponseCode.ofValue s'.members.responsePacket.code = some .regSuccessful) :
    s'.members.responsePacket.payload ∈ lastGrant s'.log ∧
      (s'.folder.file keyPriv).isSome := by
  cases h with
  | oneWay hone _ => cases hone
  | @accepted s₁ _ _ _ packet _ hloads hreacts =>
    have hresponse : s'.members.responsePacket = packet := hreacts.responsePacket_eq
    have hlog : s'.log = s₁.log ++ [.sent s₁.members.requestPacket s₁.folder] ++
        [.received packet s₁.folder] := hreacts.log_eq
    rw [hresponse] at hcode
    refine ⟨?_, (hreacts.saves_keyPriv hcode).2⟩
    rw [hlog, lastGrant_concat, noteGrant, if_pos hcode, hresponse]
    rfl

end Request

/-! ## The operations -/

section Operations

open Program (Triple Outcome)

theorem uidOf_bytes {data : Bytes} {id : Uid} (h : uidOf data = some id) :
    data.take uidSize = id.bytes := by
  simp only [uidOf] at h
  split at h
  · cases h
    rfl
  · cases h

/-- `true` is returned by a process with an ID. -/
def Identifies (b : Bool) (s : Process K) : Prop := KnowsID s ∧ (b = true → HasID s)

theorem triple_registerNewClient (pf : Platform K) :
    Triple exec KnowsID (registerNewClient pf) Identifies fun _ => KnowsID := by
  refine triple_catchException ?_ fun s hs => ⟨hs, nofun⟩
  have hsend : Triple exec KnowsID (sendAndRecieve pf .register)
      (fun _ s => KnowsID s ∧
        (ResponseCode.ofValue s.members.responsePacket.code = some .regSuccessful →
          s.members.responsePacket.payload ∈ lastGrant s.log ∧ (s.folder.file keyPriv).isSome))
      fun _ => KnowsID :=
    triple_sendAndRecieve _ (fun s s' b hs h => ⟨hs.registers h, h.grants⟩)
      fun s s' e hs h => hs.registers h
  refine hsend.bind fun _ => ?_
  rintro s ⟨hs, hgrants⟩
  simp only [responseCode, Program.run_bind, Cpp.run_members, Program.pure_eq, Program.run_ret]
  cases hcode : ResponseCode.ofValue s.members.responsePacket.code with
  | none => exact ⟨hs, nofun⟩
  | some label =>
    cases label with
    | regSuccessful =>
      obtain ⟨hlast, hkey⟩ := hgrants hcode
      simp only [Program.run_bind, Cpp.run_members, Cpp.run_lift]
      cases hid : uidOf s.members.responsePacket.payload with
      | none => exact hs
      | some clientID =>
        have hgranted : HasID { s with members := { s.members with
            requestPacket := { s.members.requestPacket with clientID := clientID } } } :=
          Or.inl ⟨_, hlast, uidOf_bytes hid, hkey⟩
        exact ⟨⟨hs.acts, fun _ => hgranted⟩, fun _ => hgranted⟩
    | _ => exact ⟨hs, nofun⟩

theorem triple_signIn (pf : Platform K) :
    Triple exec KnowsID (signIn pf) Identifies fun _ => KnowsID := by
  refine triple_catchException ?_ fun s hs => ⟨hs, nofun⟩
  have hsend : Triple exec KnowsID (sendAndRecieve pf .reconnect)
      (fun _ s => KnowsID s ∧ HasID s) fun _ => KnowsID :=
    triple_sendAndRecieve _ (fun s s' b hs h => ⟨hs.signsIn h, Or.inr h.signedIn⟩)
      fun s s' e hs h => hs.signsIn h
  refine hsend.bind fun _ => ?_
  rintro s ⟨hs, hid⟩
  simp only [responseCode, Program.run_bind, Cpp.run_members, Program.pure_eq, Program.run_ret]
  cases hcode : ResponseCode.ofValue s.members.responsePacket.code with
  | none => exact ⟨hs, nofun⟩
  | some label =>
    cases label with
    | reconnectFailed => exact triple_registerNewClient pf s hs
    | okReconnOutAes =>
      have hsame : HasID { s with members := { s.members with registeredClient := true } } := hid
      exact ⟨⟨hs.acts, fun _ => hsame⟩, fun _ => hsame⟩
    | _ => exact ⟨hs, nofun⟩

/-- An upload keeps the ID, or ends the process. -/
theorem triple_uploadFile (pf : Platform K) :
    Triple exec KnowsID (uploadFile pf)
      (fun result s => ActsInOrder s.log ∧ (result = .returned → KnowsID s))
      fun _ s => ActsInOrder s.log := by
  have htry : Triple exec KnowsID (uploadTry pf) (fun _ => KnowsID)
      fun _ s => ActsInOrder s.log :=
    triple_uploadTry fun code hregister hreconnect =>
      triple_sendAndRecieve _ (fun s s' b hs h => hs.exchange h hregister hreconnect)
        fun s s' e hs h => h.acts hs
  exact triple_catchException (htry.bind fun _ s hs => ⟨hs.acts, fun _ => hs⟩)
    fun s hs => ⟨hs, nofun⟩

/-- What an operation with a value came to is logged. -/
theorem knowsID_finish {p : Cpp K Bool}
    (h : Triple exec KnowsID p Identifies fun _ => KnowsID) {s : Process K} (hs : KnowsID s) :
    KnowsID (Process.finish (Program.run exec p s)) := by
  have h := h s hs
  generalize Program.run exec p s = result at h ⊢
  rcases result with ⟨e | b, s'⟩
  · exact ⟨h.acts, h.known⟩
  · obtain ⟨hs', hreturned⟩ := h
    refine ⟨eachSent_returned.mpr hs'.acts, fun hknown => ?_⟩
    have hid : HasID s' := by
      cases b with
      | true => exact hreturned rfl
      | false =>
        simp only [Process.finish, identified_concat, noteIdentity] at hknown
        exact hs'.known hknown
    simpa [HasID, Process.finish, noteGrant] using hid

end Operations

/-! ## A whole life -/

/-- What holds between two actions. -/
def LivesInOrder (s : Process K) : Prop :=
  ActsInOrder s.log ∧ (s.running = true → KnowsID s)

theorem livesInOrder_call (operation : Operation) {s : Process K} (hs : KnowsID s) :
    LivesInOrder (operation.call pf s) := by
  cases operation with
  | signIn =>
    have h := knowsID_finish (triple_signIn pf) hs
    exact ⟨h.acts, fun _ => h⟩
  | registerNewClient =>
    have h := knowsID_finish (triple_registerNewClient pf) hs
    exact ⟨h.acts, fun _ => h⟩
  | uploadFile =>
    have h := triple_uploadFile pf s hs
    rw [Operation.call]
    generalize Program.run exec (uploadFile pf) s = result at h ⊢
    rcases result with ⟨e | _ | _, s'⟩
    · exact ⟨h, fun hreturned => by cases hreturned⟩
    · exact ⟨h.1, fun _ => h.2 rfl⟩
    · exact ⟨h.1, fun hreturned => by cases hreturned⟩

/-- What one action keeps. -/
theorem LivesInOrder.step {e : Step K} (he : e.Happens pf) (hs : LivesInOrder e.before) :
    LivesInOrder e.after := by
  obtain ⟨hallowed, hafter⟩ := he
  rw [hafter]
  cases haction : e.action with
  | start privateKey transferInfo userName memory connection =>
    have hlog : ActsInOrder (e.before.log ++ [.started userName e.before.folder]) :=
      eachSent_started.mpr hs.1
    refine ⟨hlog, fun _ => ⟨hlog, fun hknown => ?_⟩⟩
    simp [Action.perform, noteIdentity] at hknown
  | call operation =>
    rw [haction] at hallowed
    exact livesInOrder_call operation (hs.2 hallowed)

/-! ## A failed registration -/

theorem registreationRequest_error {userName : Bytes} {packet : RequestPacket} {e : Fault}
    (h : registreationRequest userName packet = .error e) : e = .outOfBounds := by
  simp only [registreationRequest] at h
  generalize blit _ 0 (userName ++ [0]) = written at h
  cases written with
  | none =>
    cases h
    rfl
  | some payload => cases h

/-- A registration that a `catch` is about has been sent: what goes wrong before that
is no exception. -/
theorem triple_register_clientID (pf : Platform K) :
    Triple exec (fun _ => True) (sendAndRecieve pf .register)
      (fun _ s => s.members.requestPacket.clientID = ignore)
      fun e s => e = .exception → s.members.requestPacket.clientID = ignore := by
  intro s _
  cases hrequest : registreationRequest s.members.userName s.members.requestPacket with
  | error e =>
    obtain rfl := registreationRequest_error hrequest
    have hselect : Program.run exec (requestSelector pf.aesEncryptBlock .register) s =
        (.error .outOfBounds, s) := by simp [requestSelector, loadRequest, hrequest]
    rw [sendAndRecieve, Program.run_bind, hselect]
    intro hfault
    cases hfault
  | ok packet =>
    have hselect : Program.run exec (requestSelector pf.aesEncryptBlock .register) s =
        (.ok true, { s with members := { s.members with requestPacket := packet } }) := by
      simp [requestSelector, loadRequest, hrequest]
    have hsent := (sendAndRecieve_sends hselect).length_le
    have hexchange := sendAndRecieve_exchange pf .register s
    generalize Program.run exec (sendAndRecieve pf .register) s = result at hsent hexchange ⊢
    rcases result with ⟨r, s'⟩
    have hid : s'.members.requestPacket.clientID = ignore := by
      have hexchange : Exchange pf .register s r s' := hexchange
      rcases hexchange.registers with ⟨_, _, -, rfl⟩ | ⟨-, hid⟩
      · simp at hsent
      · exact hid
    cases r with
    | error e => exact fun _ => hid
    | ok b => exact hid

theorem triple_registerNewClient_clientID (pf : Platform K) :
    Triple exec (fun _ => True) (registerNewClient pf)
      (fun b s => b = false → s.members.requestPacket.clientID = ignore)
      fun e s => e = .exception → s.members.requestPacket.clientID = ignore := by
  refine triple_catchException ?_ fun s hs _ => hs rfl
  refine (triple_register_clientID pf).bind fun _ s hid => ?_
  simp only [responseCode, Program.run_bind, Cpp.run_members, Program.pure_eq, Program.run_ret]
  cases ResponseCode.ofValue s.members.responsePacket.code with
  | none => exact fun _ => hid
  | some label =>
    cases label with
    | regSuccessful =>
      simp only [Program.run_bind, Cpp.run_members, Cpp.run_lift]
      cases uidOf s.members.responsePacket.payload with
      | none => exact fun _ => hid
      | some clientID => exact fun hfalse => by cases hfalse
    | _ => exact fun _ => hid

/-- **The client acts under an ID that it was given**: in every life, over any
responses, if every acting request is sent by a process whose last sign-in or
registration is a sign-in request or succeeded, then each one carries the ID of the
last 1600 or of `me.info`, and not the filler. A registration that fails leaves the
filler behind, so it leaves the ID alone only if that was the filler already. -/
theorem acts_under_given_id {folder : Folder} {memory : Members K}
    {connection : ConnectionHandler} {es : List (Step K)} {s : Process K}
    (h : Life pf (beforeStart folder memory connection) es s)
    (hid : EachSent Identified s.log) :
    EachSent UnderGivenID s.log ∧
      ∀ t t', Program.run exec (registerNewClient pf) t = (.ok false, t') →
        (t'.members.requestPacket.clientID = t.members.requestPacket.clientID ↔
          t.members.requestPacket.clientID = ignore) := by
  have hlives : LivesInOrder s :=
    h.invariant ⟨eachSent_nil, nofun⟩ fun e he hs => hs.step he
  refine ⟨hlives.1.mp hid, fun t t' hrun => ?_⟩
  have hfailed := triple_registerNewClient_clientID pf t trivial
  rw [hrun] at hfailed
  rw [hfailed rfl]
  exact eq_comm

/-- `main`, against a server that sends what is given. -/
def mainActions (privateKey incoming : Bytes) : List (Action Bytes) :=
  .start privateKey ⟨[0x66]⟩ [0x75] uninitialized ⟨incoming, [], 100000, false⟩ ::
    mainOperations.map .call

/-- Before `main` is started for the first time with these files. -/
def beforeMain (file : Bytes → Option Bytes) : Process Bytes :=
  beforeStart (toyProcess [] file []).folder uninitialized ⟨[], [], 0, false⟩

/-- A 1603 with the checksum of the file. -/
def matchingFrame : Bytes := responseFrame .validCrcFile (toLE 4 1868340375)

/-- `main` in an empty folder: the client is registered, signs in and uploads twice. -/
def newcomer : Option (Process Bytes) :=
  follow toyPlatform (mainActions [1]
    (responseFrame .regSuccessful (List.replicate 16 9) ++ toyKeyFrame .inPublicOutCrypted [1] ++
      matchingFrame ++ responseFrame .msgRecieved [] ++ toyKeyFrame .okReconnOutAes [1] ++
      matchingFrame ++ responseFrame .msgRecieved [])) (beforeMain fun _ => none)

theorem newcomer_acts_under_given_id :
    ∃ s, newcomer = some s ∧ s.log.length = 17 ∧ EachSent UnderGivenID s.log := by
  have hrun : newcomer.any (fun s => s.log.length = 17 ∧ EachSent Identified s.log) := by
    decide +kernel
  obtain ⟨s, hs, hlog⟩ := (Option.any_eq_true ..).mp hrun
  obtain ⟨hlength, hid⟩ := of_decide_eq_true hlog
  obtain ⟨es, hlife⟩ := life_follow .start hs
  exact ⟨s, hs, hlength, (acts_under_given_id hlife hid).1⟩

/-- The files that the registration of a client with the key `1` left. -/
def registeredFiles : Bytes → Option Bytes := fun name =>
  if name = keyPriv then some [1]
  else if name = meInfo then some ([0x75, 0x0a] ++ List.replicate 32 0x39 ++ [0x0a, 1])
  else none

/-- `main` in the folder of a registered client: the registration is refused, and the
public key sent all the same. -/
def oldHand : Option (Process Bytes) :=
  follow toyPlatform (mainActions [2]
    (responseFrame .regFailed [] ++ (List.replicate 3 (responseFrame .generalErr [])).flatten ++
      toyKeyFrame .okReconnOutAes [1] ++ matchingFrame ++ responseFrame .msgRecieved []))
    (beforeMain registeredFiles)

/-- It goes out under the filler, three times. -/
theorem oldHand_acts_under_filler :
    ¬ ∀ es s, Life toyPlatform (beforeMain registeredFiles) es s → EachSent UnderGivenID s.log := by
  intro hall
  have hrun : oldHand.any (fun s => ¬ EachSent UnderGivenID s.log) := by decide +kernel
  obtain ⟨s, hs, hlog⟩ := (Option.any_eq_true ..).mp hrun
  obtain ⟨es, hlife⟩ := life_follow .start hs
  exact of_decide_eq_true hlog (hall es s hlife)

end FileTransfer.Client
