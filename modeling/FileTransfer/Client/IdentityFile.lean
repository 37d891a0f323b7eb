import FileTransfer.Client.Identity
import FileTransfer.Client.TransferFile
import FileTransfer.Client.UuidLine

/-!
# The files of a new client

`createNewClientFile` writes `key.priv` first and looks for `me.info` only then, so a
failure behind the first write leaves a key without an identity. What it writes
into `me.info` is what a later sign-in reads back.
-/

namespace FileTransfer.Client

open FileTransfer.Effect FileTransfer.Server

variable {K : Type}

/-! ## Both files or none -/

/-- What `me.info` holds behind a registration: the user name, the UUID in hexadecimal
and the private key. -/
def identityText (userName payload key : Bytes) : Bytes :=
  userName ++ [0x0a] ++ toHex payload ++ [0x0a] ++ key

/-- `createNewClientFile` returns, and leaves both files as they were or creates both. -/
structure AllOrNothing (rsa : Rsa K) (payload : Bytes) (s : Process K) : Prop where
  returns : ∃ b, (Program.run exec (createNewClientFile rsa payload) s).1 = .ok b
  unchanged : (Program.run exec (createNewClientFile rsa payload) s).1 = .ok false →
    ∀ name ∈ [keyPriv, meInfo],
      (Program.run exec (createNewClientFile rsa payload) s).2.folder.file name =
        s.folder.file name
  created : (Program.run exec (createNewClientFile rsa payload) s).1 = .ok true →
    s.folder.file keyPriv = none ∧ s.folder.file meInfo = none ∧
      ∃ key, (Program.run exec (createNewClientFile rsa payload) s).2.folder.file keyPriv =
          some key ∧
        (Program.run exec (createNewClientFile rsa payload) s).2.folder.file meInfo =
          some (identityText s.members.userName payload key)

@[simp] theorem Process.withIdentity_meInfo (rsa : Rsa K) (s : Process K) (payload : Bytes) :
    s.withIdentity rsa payload meInfo = some (identityText s.members.userName payload
      (rsa.encodedPrivateKey s.members.privateKey)) :=
  Function.update_self ..

/-- **The identity files are all or nothing** where a key that is saved is followed by an
identity that is saved, and only there. -/
theorem allOrNothing_iff (rsa : Rsa K) (payload : Bytes) (s : Process K) :
    AllOrNothing rsa payload s ↔ (SavesKey s → SavesIdentity s) := by
  obtain ⟨opens, hrun⟩ := run_createNewClientFile rsa s payload
  by_cases hkey : SavesKey s
  swap
  · -- nothing is written
    rw [if_neg hkey] at hrun
    refine ⟨fun _ h => absurd h hkey, fun _ => ⟨⟨false, by rw [hrun]⟩, ?_, ?_⟩⟩
    · intro _ name _
      rw [hrun]
    · intro htrue
      rw [hrun] at htrue
      cases htrue
  rw [if_pos hkey] at hrun
  by_cases hidentity : SavesIdentity s
  · rw [if_pos hidentity] at hrun
    refine ⟨fun _ _ => hidentity, fun _ => ⟨⟨true, by rw [hrun]⟩, ?_, ?_⟩⟩
    · intro hfalse
      rw [hrun] at hfalse
      cases hfalse
    · intro _
      rw [hrun]
      exact ⟨hkey.1, hidentity.1, _, s.withIdentity_keyPriv rsa payload,
        s.withIdentity_meInfo rsa payload⟩
  · -- the key is there, and the result is `false`
    rw [if_neg hidentity] at hrun
    refine ⟨fun h => ?_, fun h => absurd (h hkey) hidentity⟩
    have hsame := h.unchanged (by rw [hrun]) keyPriv (by simp)
    rw [hrun] at hsame
    simp only [Process.withKey_keyPriv, hkey.1] at hsame
    cases hsame

/-- A client without a key in a folder with somebody's `me.info`. -/
def keyless : Process Bytes :=
  toyProcess [1] (fun name => if name = meInfo then some [0x75, 0x0a] else none) []

/-- Its registration fails, and leaves `key.priv` behind. -/
theorem keyless_keeps_key :
    ¬ AllOrNothing toyPlatform.rsa (List.replicate 16 9) keyless ∧
      (Program.run exec (createNewClientFile toyPlatform.rsa (List.replicate 16 9)) keyless).1 =
        .ok false ∧
      keyless.folder.file keyPriv = none ∧
      (Program.run exec (createNewClientFile toyPlatform.rsa
        (List.replicate 16 9)) keyless).2.folder.file keyPriv = some [1] := by
  have hfalse : (Program.run exec (createNewClientFile toyPlatform.rsa
      (List.replicate 16 9)) keyless).1 = .ok false := by decide +kernel
  have hbefore : keyless.folder.file keyPriv = none := by decide +kernel
  have hafter : (Program.run exec (createNewClientFile toyPlatform.rsa
      (List.replicate 16 9)) keyless).2.folder.file keyPriv = some [1] := by decide +kernel
  refine ⟨?_, hfalse, hbefore, hafter⟩
  intro h
  have hsame := h.unchanged hfalse keyPriv (by simp)
  rw [hafter, hbefore] at hsame
  cases hsame

/-! ## The identity reads back -/

theorem newline_notMem_toHex (payload : Bytes) : 0x0a ∉ toHex payload := by
  intro h
  have hdigit := (denotes_toHex payload).isSome _ h
  cases hdigit

section ReadBack

variable {userName : Bytes} (hline : 0x0a ∉ userName)
include hline

/-- The first line of `me.info` is the user name, whatever key follows. -/
theorem getline_identityText (payload key : Bytes) :
    getline (identityText userName payload key) = (userName, toHex payload ++ 0x0a :: key) := by
  have htext : identityText userName payload key =
      userName ++ 0x0a :: (toHex payload ++ 0x0a :: key) := by
    simp only [identityText, List.append_assoc, List.cons_append, List.nil_append]
  rw [htext]
  exact Lines.nextLine_append hline _

/-- The second line is the UUID in hexadecimal. -/
theorem uuidLine_identityText (payload key : Bytes) :
    uuidLine (identityText userName payload key) = toHex payload := by
  rw [uuidLine, getline_identityText hline]
  exact congrArg Prod.fst (Lines.nextLine_append (newline_notMem_toHex payload) key)

end ReadBack

/-- What a successful `createNewClientFile` leaves in `me.info`. -/
theorem meInfo_of_createNewClientFile {rsa : Rsa K} {payload : Bytes} {s s' : Process K}
    (h : Program.run exec (createNewClientFile rsa payload) s = (.ok true, s')) :
    s'.folder.file meInfo = some (identityText s.members.userName payload
      (rsa.encodedPrivateKey s.members.privateKey)) := by
  obtain ⟨opens, hrun⟩ := run_createNewClientFile rsa s payload
  rw [h] at hrun
  split at hrun
  · split at hrun
    · cases hrun
      exact s.withIdentity_meInfo rsa payload
    · cases hrun
  · cases hrun

/-- The payload of a registration is the user name and its zero byte. -/
theorem registreationRequest_payload {userName : Bytes} (h : userName.length < 2 ^ 32 - 1)
    (packet : RequestPacket) : ∃ request, registreationRequest userName packet = .ok request ∧
      request.payload = userName ++ [0] := by
  have hsize : (UInt32.ofNat (userName.length + 1)).toNat = (userName ++ [0]).length := by
    rw [List.length_append, List.length_singleton]
    apply UInt32.toNat_ofNat_of_lt
    show userName.length + 1 < 2 ^ 32
    omega
  have hwhole : blit (initRequest { packet with clientID := ignore } .register
      (UInt32.ofNat (userName.length + 1))).payload 0 (userName ++ [0]) =
        some (userName ++ [0]) := by
    apply blit_whole
    simp only [initRequest, List.length_replicate, hsize]
  exact ⟨_, bind_eq_ok.mpr ⟨_, inBounds_eq_ok.mpr hwhole, rfl⟩, rfl⟩

/-- **The identity reads back**: behind a registration that wrote `me.info`, a sign-in from
that file carries the UUID of the registration, and the payload that the registration of
the same user carried. -/
theorem me_info_reads_back (rsa : Rsa K) {s s' : Process K} {uuid : Uid} {ti : TransferMembers}
    (hname : (ti.isValidUserName s.members.userName).1 = true)
    (hline : 0x0a ∉ s.members.userName)
    (hrun : Program.run exec (createNewClientFile rsa uuid.bytes) s = (.ok true, s'))
    (packet packet₀ : RequestPacket) : ∃ signIn registration,
      clientSignIn (s'.folder.file meInfo) packet = .ok (true, signIn) ∧
        signIn.code = RequestCode.reconnect.value ∧ signIn.clientID = uuid ∧
        registreationRequest s.members.userName packet₀ = .ok registration ∧
        signIn.payload = registration.payload := by
  obtain ⟨⟨hfirst, hlast⟩, -⟩ := TransferMembers.isValidUserName_eq_true.mp (Prod.ext hname rfl)
  have hmade := meInfo_of_createNewClientFile hrun
  rw [hmade]
  have hfirstLine := getline_identityText hline uuid.bytes
    (rsa.encodedPrivateKey s.members.privateKey)
  have hdenotes := denotes_toHex uuid.bytes
  rw [← uuidLine_identityText hline uuid.bytes
    (rsa.encodedPrivateKey s.members.privateKey)] at hdenotes
  obtain ⟨signIn, hsign, hid, hpayload, hcode⟩ := clientSignIn_denotes
    (by
      rw [hfirstLine]
      exact List.ne_nil_of_length_pos hfirst)
    (by
      rw [hfirstLine]
      show s.members.userName.length ≤ 255
      omega) hdenotes packet
  have hsmall : s.members.userName.length < 2 ^ 32 - 1 := by omega
  obtain ⟨registration, hrequest, hsame⟩ := registreationRequest_payload hsmall packet₀
  refine ⟨signIn, registration, hsign, hcode, hid, hrequest, ?_⟩
  rw [hpayload, hsame, hfirstLine]

/-- The user `u`, registered under sixteen times the byte 9. -/
theorem newcomer_reads_back : ∃ signIn registration,
    clientSignIn ((Program.run exec (createNewClientFile toyPlatform.rsa
        (List.replicate 16 9)) (toyProcess [1] (fun _ => none) [])).2.folder.file meInfo)
      ⟨ignore, 0, 0, 0, []⟩ = .ok (true, signIn) ∧
      signIn.code = RequestCode.reconnect.value ∧
      signIn.clientID = ⟨List.replicate 16 9, by decide⟩ ∧
      registreationRequest [0x75] ⟨ignore, 0, 0, 0, []⟩ = .ok registration ∧
      signIn.payload = registration.payload := by
  have hrun : (Program.run exec (createNewClientFile toyPlatform.rsa (List.replicate 16 9))
      (toyProcess [1] (fun _ => none) [])).1 = .ok true := by decide +kernel
  exact @me_info_reads_back Bytes toyPlatform.rsa (toyProcess [1] (fun _ => none) []) _
    ⟨List.replicate 16 9, by decide⟩ ⟨[], [], [], []⟩ (by decide) (by decide)
    (Prod.ext hrun rfl) _ _

end FileTransfer.Client
