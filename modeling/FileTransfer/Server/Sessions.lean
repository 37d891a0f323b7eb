import FileTransfer.Server.Answers

/-!
# Sessions come after registration and key exchange

Nothing in the server records how far a client has come. What a row of
`clients` holds says it: a row is there because a registration issued its uid,
a public key that is not the placeholder was stored by a key exchange, and an
AES key that is not the placeholder was drawn for a public key that could be
recovered. `KeysFrom` is that invariant; an answer 1603 or 1605 needs the keys.
-/

namespace FileTransfer.Server

open FileTransfer.Effect

/-! ## Where a program leaves the clients -/

section Leaves

variable {α β : Type} {env : Env} {crypto : Crypto} {pre : World → Prop}
  {J : Table ClientRow.uuid → Prop} {uid : Uid}

/-- However `p` ends, `J` holds of the clients then. -/
abbrev Leaves (env : Env) (pre : World → Prop) (p : Py α) (J : Table ClientRow.uuid → Prop) :
    Prop :=
  Program.Triple (exec env) pre p (fun _ w => J w.clients) fun _ w => J w.clients

theorem leaves_tryExcept {body : Py α} {handler : Exn → Py α} (hbody : Leaves env pre body J)
    (hhandler : ∀ e, Leaves env (fun w => J w.clients) (handler e) J) :
    Leaves env pre (tryExcept body handler) J :=
  triple_tryExcept env hbody hhandler

theorem leaves_ofExcept {x : Except Exn α} (hpre : ∀ w, pre w → J w.clients) :
    Leaves env pre (ofExcept x) J := by
  intro w hw
  rw [run_ofExcept]
  cases x <;> exact hpre w hw

theorem leaves_getRandomBytes (n : Nat) (hpre : ∀ w, pre w → J w.clients) :
    Leaves env pre (getRandomBytes n) J :=
  Program.triple_op fun w hw => hpre w hw

/-- `SET field = data WHERE uuid = uid`. -/
abbrev setColumn (clients : Table ClientRow.uuid) (uid : Uid) (field : ClientField)
    (data : field.Ty) : Table ClientRow.uuid :=
  clients.update (·.uuid = uid) (·.set field data) fun row => row.set_uuid field data

/-- What holds of every row that stays and of every row that is changed. -/
theorem forall_setColumn {clients : Table ClientRow.uuid} {field : ClientField} {data : field.Ty}
    {P : ClientRow → Prop} (hold : ∀ row ∈ clients, P row)
    (hnew : ∀ row ∈ clients, row.uuid = uid → P (row.set field data)) :
    ∀ row ∈ setColumn clients uid field data, P row := by
  intro row hrow
  obtain ⟨r, hr, rfl⟩ := Table.mem_update.mp hrow
  split
  · next huid => exact hnew r hr (of_decide_eq_true huid)
  · exact hold r hr

theorem set_mem_setColumn {clients : Table ClientRow.uuid} {row : ClientRow} (hrow : row ∈ clients)
    (huid : row.uuid = uid) (field : ClientField) (data : field.Ty) :
    row.set field data ∈ setColumn clients uid field data :=
  Table.mem_update.mpr ⟨row, hrow, if_pos (decide_eq_true huid)⟩

/-- An UPDATE of `clients` sets its column and then the time the client was last
seen; either statement may fail. -/
theorem leaves_updateClient {field : ClientField} {data : field.Ty}
    (hfails : ∀ w, pre w → env.queryFails w.tick = true → J w.clients)
    (hset : ∀ w, pre w → env.queryFails w.tick = false → J (setColumn w.clients uid field data))
    (hseen : ∀ clients now, J clients → J (setColumn clients uid .lastSeen now)) :
    Leaves env pre (updateEntry (.client field data) uid false []) J := by
  refine leaves_tryExcept ?_ fun _ w hw => hw
  have hfirst : Leaves env pre (runThreadQuery (.update (.client field data) uid)) J := by
    refine Program.triple_op fun w hw => ?_
    simp only [exec]
    split
    · next hquery => exact hfails w hw hquery
    · next hquery => exact hset w hw (by simpa using hquery)
  refine hfirst.bind fun _ => ?_
  have hnow : Leaves env (fun w => J w.clients) getCurrentTimedate J :=
    Program.triple_op fun w hw => hw
  refine hnow.bind fun now => ?_
  have hsecond : Leaves env (fun w => J w.clients)
      (runThreadQuery (.update (.client .lastSeen now) uid)) J := by
    refine Program.triple_op fun w hw => ?_
    simp only [exec]
    split
    · exact hw
    · exact hseen _ now hw
  exact hsecond.bind fun _ w hw => hw

/-- A key is drawn and stored while the public key in the row can be
recovered. -/
theorem leaves_generateAesKey
    (hseen : ∀ clients now, J clients → J (setColumn clients uid .lastSeen now))
    (haes : ∀ clients row key aesKey, J clients → row ∈ clients → row.uuid = uid →
      row.Recovers crypto key → J (setColumn clients uid .aesKey aesKey)) :
    Leaves env (fun w => J w.clients) (generateAesKey crypto uid) J := by
  have hrecover : Program.Triple (exec env) (fun w => J w.clients) (recoverPublicKey crypto uid)
      (fun key w => J w.clients ∧ ∃ row ∈ w.clients, row.uuid = uid ∧ row.Recovers crypto key)
      fun _ w => J w.clients := by
    intro w hw
    have hworld := @run_recoverPublicKey_world env w crypto uid
    rcases hrun : Program.run (exec env) (recoverPublicKey crypto uid) w with ⟨e | key, w₁⟩
    · obtain rfl : w₁ = w.ticked := by rw [← hworld, hrun]
      exact hw
    · obtain ⟨-, row, hrow, hkey, rfl⟩ := run_recoverPublicKey_ok.mp hrun
      obtain ⟨hmem, huid⟩ := Table.mem_of_find? hrow
      exact ⟨hw, row, hmem, of_decide_eq_true huid, hkey⟩
  refine hrecover.bind fun key => ?_
  have hdraw : Program.Triple (exec env)
      (fun w => J w.clients ∧ ∃ row ∈ w.clients, row.uuid = uid ∧ row.Recovers crypto key)
      (getRandomBytes Constants.aesKeySize)
      (fun _ w => J w.clients ∧ ∃ row ∈ w.clients, row.uuid = uid ∧ row.Recovers crypto key)
      fun _ w => J w.clients := Program.triple_op fun w hw => hw
  refine hdraw.bind fun aesKey => ?_
  refine (leaves_updateClient (fun w hw _ => hw.1) ?_ hseen).bind fun _ => ?_
  · rintro w ⟨hw, row, hrow, huid, hkey⟩ -
    exact haes _ row key aesKey hw hrow huid hkey
  · exact (leaves_getRandomBytes 20 fun w hw => hw).bind fun seed => leaves_ofExcept fun w hw => hw

end Leaves

/-! ## What the rows say about the past -/

section Invariant

variable {crypto : Crypto} {issued issued' : Uid → Prop} {stored stored' : Uid → Bytes → Prop}
  {clients clients' : Table ClientRow.uuid} {uid : Uid}

/-- `RSA.importKey` takes these bytes for a public key. -/
def Accepted (crypto : Crypto) (key : Bytes) : Prop :=
  ∃ rsaKey, crypto.importKey key = .ok (some rsaKey) ∧ crypto.hasPrivate rsaKey = false

/-- Every row was issued; a public key other than the placeholder was stored,
and an AES key other than the placeholder was drawn for an accepted one. -/
structure KeysFrom (crypto : Crypto) (issued : Uid → Prop) (stored : Uid → Bytes → Prop)
    (clients : Table ClientRow.uuid) : Prop where
  issued : ∀ row ∈ clients, issued row.uuid
  publicKey : ∀ row ∈ clients, row.publicKey ≠ publicKeyPlaceholder →
    stored row.uuid row.publicKey
  aesKey : ∀ row ∈ clients, row.aesKey ≠ aesKeyPlaceholder →
    ∃ key, Accepted crypto key ∧ stored row.uuid key

namespace KeysFrom

theorem empty : KeysFrom crypto issued stored .empty :=
  ⟨nofun, nofun, nofun⟩

/-- The past only grows. -/
theorem mono (h : KeysFrom crypto issued stored clients) (hissued : ∀ uid, issued uid → issued' uid)
    (hstored : ∀ uid key, stored uid key → stored' uid key) :
    KeysFrom crypto issued' stored' clients where
  issued row hrow := hissued _ (h.issued row hrow)
  publicKey row hrow hkey := hstored _ _ (h.publicKey row hrow hkey)
  aesKey row hrow hkey :=
    let ⟨key, haccepted, hkey⟩ := h.aesKey row hrow hkey
    ⟨key, haccepted, hstored _ _ hkey⟩

/-- A fresh row has both placeholders. -/
theorem insert (h : KeysFrom crypto issued stored clients) {name now : Str} (hissued : issued uid)
    (hinsert : clients.insert? ⟨uid, name, publicKeyPlaceholder, now, aesKeyPlaceholder⟩ =
      some clients') : KeysFrom crypto issued stored clients' where
  issued row hrow := by
    rcases (Table.mem_insert? hinsert).mp hrow with hrow | rfl
    · exact h.issued row hrow
    · exact hissued
  publicKey row hrow hkey := by
    rcases (Table.mem_insert? hinsert).mp hrow with hrow | rfl
    · exact h.publicKey row hrow hkey
    · exact absurd rfl hkey
  aesKey row hrow hkey := by
    rcases (Table.mem_insert? hinsert).mp hrow with hrow | rfl
    · exact h.aesKey row hrow hkey
    · exact absurd rfl hkey

theorem setLastSeen (h : KeysFrom crypto issued stored clients) (now : Str) :
    KeysFrom crypto issued stored (setColumn clients uid .lastSeen now) where
  issued := forall_setColumn h.issued fun row hrow _ => h.issued row hrow
  publicKey := forall_setColumn h.publicKey fun row hrow _ => h.publicKey row hrow
  aesKey := forall_setColumn h.aesKey fun row hrow _ => h.aesKey row hrow

/-- A public key is set by what stores it. -/
theorem setPublicKey (h : KeysFrom crypto issued stored clients) {key : Bytes}
    (hstored : ∀ row ∈ clients, row.uuid = uid → stored uid key) :
    KeysFrom crypto issued stored (setColumn clients uid .publicKey key) where
  issued := forall_setColumn h.issued fun row hrow _ => h.issued row hrow
  publicKey := forall_setColumn h.publicKey fun row hrow huid _ =>
    huid ▸ hstored row hrow huid
  aesKey := forall_setColumn h.aesKey fun row hrow _ => h.aesKey row hrow

/-- An AES key is set while the public key in the row can be recovered. -/
theorem setAesKey (h : KeysFrom crypto issued stored clients) {row : ClientRow}
    {key : crypto.RsaKey} (hrow : row ∈ clients) (huid : row.uuid = uid)
    (hkey : row.Recovers crypto key) (aesKey : Bytes) :
    KeysFrom crypto issued stored (setColumn clients uid .aesKey aesKey) where
  issued := forall_setColumn h.issued fun row hrow _ => h.issued row hrow
  publicKey := forall_setColumn h.publicKey fun row hrow _ => h.publicKey row hrow
  aesKey := forall_setColumn h.aesKey fun r hr hruid _ => by
    have hstored : stored row.uuid row.publicKey := h.publicKey row hrow hkey.1
    exact ⟨row.publicKey, ⟨key, hkey.2⟩, hruid.trans huid.symm ▸ hstored⟩

end KeysFrom

end Invariant

/-! ## The steps that matter -/

namespace Step

variable (env : Env) (crypto : Crypto) (s : Step)

/-- A registration whose answer, 1600, carries `uid`. -/
def Issues (uid : Uid) : Prop :=
  s.header.code = Constants.register ∧
    s.response env crypto = some (uidResponse Constants.initRegistrationSucc uid)

/-- A key exchange that stores `key`, the 160 bytes behind the user name: its
client has a row, and the UPDATE works. -/
structure Stores (key : Bytes) : Prop where
  version : s.header.version = Constants.version
  code : s.header.code = Constants.sPublicKey
  payload : Constants.publicKey < s.payload.length
  key_eq : key = s.payload.drop (s.payload.length - Constants.publicKey)
  query : env.queryFails s.before.tick = false
  row : ∃ row ∈ s.before.clients, row.uuid = s.header.uid

variable {env crypto s}

/-- What is stored is a key of 160 bytes. -/
theorem Stores.length {key : Bytes} (h : s.Stores env key) : key.length = 160 := by
  have hlen : 160 < s.payload.length := h.payload
  rw [h.key_eq, List.length_drop]
  show s.payload.length - (s.payload.length - 160) = 160
  omega

/-! What each code does to the clients. -/

/-- The insert takes place and is answered with 1600, or nothing is inserted. -/
theorem run_insert_cases (name : Str) (uid : Uid) (now : Str) (w : World) :
    (∃ w', Program.run (exec env) (Registration.insert name uid now) w =
        (.ok (.response (uidResponse Constants.initRegistrationSucc uid)), w') ∧
      w.clients.insert? ⟨uid, name, publicKeyPlaceholder, now, aesKeyPlaceholder⟩ =
        some w'.clients) ∨
    (Program.run (exec env) (Registration.insert name uid now) w).2.clients = w.clients := by
  rw [Registration.insert, Program.run_perform]
  simp only [exec]
  by_cases hfails : env.queryFails w.tick
  · rw [if_pos hfails]
    exact .inr rfl
  · rw [if_neg hfails]
    simp only [Query.exec]
    cases hinsert : w.clients.insert?
      ⟨uid, name, publicKeyPlaceholder, now, aesKeyPlaceholder⟩ with
    | none => exact .inr rfl
    | some clients => exact .inl ⟨_, rfl, rfl⟩

/-- A registration adds the row of the uid it issues, or no row. -/
theorem clients_after_register (hcode : s.header.code = Constants.register) :
    (s.after env crypto).clients = s.before.clients ∨ ∃ uid name now, s.Issues env crypto uid ∧
      s.before.clients.insert? ⟨uid, name, publicKeyPlaceholder, now, aesKeyPlaceholder⟩ =
        some (s.after env crypto).clients := by
  by_cases hregisters : ∃ name, Registers s.header s.payload name
  · obtain ⟨name, h⟩ := hregisters
    unfold Issues after response
    rw [serve, reqSelect_register h, Registration.lookup, Program.run_perform, exec_lookup]
    rcases (exec env (.query (.selectUuid name)) s.before).1 with e | found
    · exact .inl (by cases e <;> rfl)
    · rcases found with _ | uid
      · -- the uuid and the time are drawn, and then the row is inserted
        rcases @run_insert_cases env name (env.uuid4 s.before.ticked.tick)
            (env.now s.before.ticked.ticked.tick) s.before.ticked.ticked.ticked with
          ⟨w', hrun, hinsert⟩ | hsame
        · have hdraw : Program.run (exec env) (Registration.draw name) s.before.ticked =
              (.ok (.response (uidResponse Constants.initRegistrationSucc
                (env.uuid4 s.before.ticked.tick))), w') := hrun
          simp only [orRefuse, hdraw]
          exact .inr ⟨_, name, _, ⟨hcode, rfl⟩, hinsert⟩
        · exact .inl hsame
      · exact .inl rfl
  · refine .inl ?_
    rw [after, serve, reqSelect_not_register hcode fun name h => hregisters ⟨name, h⟩]
    rfl

/-- Requests other than 825, 826 and 827 leave the clients alone. -/
theorem clients_after_other (hregister : s.header.code ≠ Constants.register)
    (hkey : s.header.code ≠ Constants.sPublicKey) (hsign : s.header.code ≠ Constants.reconnect) :
    (s.after env crypto).clients = s.before.clients := by
  refine invariant (I := fun w => w.clients = s.before.clients) (fun o w ho hw => ?_) rfl
  rcases clients_exec o w with hsame | ⟨row, rfl⟩ | ⟨field, data, uid, rfl⟩
  · exact hsame.trans hw
  · cases ho with
    | insertClient hcode => exact absurd hcode hregister
  · cases ho with
    | setPublicKey key hcode => exact absurd hcode hkey
    | setAesKey key hcode => exact absurd hcode (not_or.mpr ⟨hkey, hsign⟩)
    | setLastSeen now hcode => exact absurd hcode (not_or.mpr ⟨hkey, hsign⟩)

theorem validatePublicKeyPayload_long {payload : Bytes}
    (h : Constants.publicKey < payload.length) : validatePublicKeyPayload payload = pure () := by
  have hshort : ¬ payload.length < Constants.publicKey := Nat.not_lt_of_lt h
  have hempty : ¬ payload.length = Constants.publicKey := Nat.ne_of_gt h
  rw [validatePublicKeyPayload, if_neg hshort, if_neg hempty]

/-- The client of `uid` has this public key. -/
def HasKey (uid : Uid) (key : Bytes) (clients : Table ClientRow.uuid) : Prop :=
  ∃ row ∈ clients, row.uuid = uid ∧ row.publicKey = key

/-- What a key exchange stores is in the row when it ends. -/
theorem Stores.publicKey_after {key : Bytes} (h : s.Stores env key) :
    HasKey s.header.uid key (s.after env crypto).clients := by
  -- no other column is the public key
  have hkeep : ∀ (clients : Table ClientRow.uuid) (field : ClientField) (data : field.Ty),
      field ≠ .publicKey → HasKey s.header.uid key clients →
      HasKey s.header.uid key (setColumn clients s.header.uid field data) := by
    rintro clients field data hfield ⟨row, hrow, huid, hkey⟩
    refine ⟨_, set_mem_setColumn hrow huid field data, (row.set_uuid field data).trans huid, ?_⟩
    cases field with
    | publicKey => exact absurd rfl hfield
    | _ => exact hkey
  have hupdate : Leaves env (· = s.before)
      (updateEntry (.client .publicKey key) s.header.uid false []) (HasKey s.header.uid key) := by
    refine leaves_updateClient (fun w hw hfails => ?_) (fun w hw _ => ?_)
      fun clients now => hkeep clients .lastSeen now (by decide)
    · subst hw
      exact absurd (hfails.symm.trans h.query) (by decide)
    · subst hw
      obtain ⟨row, hrow, huid⟩ := h.row
      exact ⟨_, set_mem_setColumn hrow huid .publicKey key, huid, rfl⟩
  have hset : Leaves env (· = s.before) (setPublicKey s.header.uid s.payload)
      (HasKey s.header.uid key) := by
    rw [setPublicKey, validatePublicKeyPayload_long h.payload]
    rw [h.key_eq] at hupdate ⊢
    exact hupdate
  have hgenerate : Leaves env (fun w => HasKey s.header.uid key w.clients)
      (generateAesKey crypto s.header.uid) (HasKey s.header.uid key) :=
    leaves_generateAesKey (fun clients now => hkeep clients .lastSeen now (by decide))
      fun clients _ _ aesKey hkey _ _ _ => hkeep clients .aesKey aesKey (by decide) hkey
  have hhandler : Leaves env (· = s.before)
      (handlePublicKey crypto s.header.uid (handlerArg s.header) s.payload)
      (HasKey s.header.uid key) := by
    refine leaves_tryExcept (hset.bind fun _ => ?_) fun _ w hw => hw
    exact hgenerate.bind fun aes => leaves_ofExcept fun w hw => hw
  rw [after_respond h.version (by rw [h.code]; rfl)]
  exact hhandler.run_snd rfl

section Preserved

variable {issued : Uid → Prop} {stored : Uid → Bytes → Prop}

theorem keysFrom_generateAesKey (uid : Uid) :
    Leaves env (fun w => KeysFrom crypto issued stored w.clients) (generateAesKey crypto uid)
      (KeysFrom crypto issued stored) :=
  leaves_generateAesKey (fun _ now h => h.setLastSeen now)
    fun _ _ _ aesKey h hrow huid hkey => h.setAesKey hrow huid hkey aesKey

/-- A key exchange: what it stores has to count as stored. -/
theorem keysFrom_handlePublicKey (version : Nat)
    (hstarted : s.header.version = Constants.version ∧ s.header.code = Constants.sPublicKey)
    (h : KeysFrom crypto issued stored s.before.clients)
    (hstored : ∀ key, s.Stores env key → stored s.header.uid key) :
    Leaves env (· = s.before) (handlePublicKey crypto s.header.uid version s.payload)
      (KeysFrom crypto issued stored) := by
  refine leaves_tryExcept ?_ fun _ w hw => hw
  have hset : Leaves env (· = s.before) (setPublicKey s.header.uid s.payload)
      (KeysFrom crypto issued stored) := by
    by_cases hlong : Constants.publicKey < s.payload.length
    · rw [setPublicKey, validatePublicKeyPayload_long hlong]
      refine leaves_updateClient (fun w hw _ => hw ▸ h) (fun w hw hquery => ?_)
        fun _ now h => h.setLastSeen now
      subst hw
      exact h.setPublicKey fun row hrow huid =>
        hstored _ ⟨hstarted.1, hstarted.2, hlong, rfl, hquery, row, hrow, huid⟩
    · -- a payload without a key is refused before anything happens
      have hrefused : ∃ e, validatePublicKeyPayload s.payload = raise e := by
        rw [validatePublicKeyPayload]
        split
        · exact ⟨_, rfl⟩
        · next hshort =>
          have hempty : s.payload.length = Constants.publicKey :=
            Nat.le_antisymm (Nat.not_lt.mp hlong) (Nat.not_lt.mp hshort)
          exact ⟨_, by rw [if_pos hempty]⟩
      obtain ⟨e, he⟩ := hrefused
      rw [setPublicKey, he]
      exact fun w hw => hw ▸ h
  refine hset.bind fun _ => ?_
  exact (keysFrom_generateAesKey _).bind fun aes => leaves_ofExcept fun w hw => hw

/-- **What one step preserves**: the rows keep telling the truth about the past,
when what the step issues and stores is added to it. -/
theorem keysFrom_after (h : KeysFrom crypto issued stored s.before.clients)
    (hissued : ∀ uid, s.Issues env crypto uid → issued uid)
    (hstored : ∀ key, s.Stores env key → stored s.header.uid key) :
    KeysFrom crypto issued stored (s.after env crypto).clients := by
  by_cases hversion : s.header.version = Constants.version
  · by_cases hregister : s.header.code = Constants.register
    · rcases @clients_after_register env crypto s hregister with
        hsame | ⟨uid, name, now, hissue, hinsert⟩
      · exact hsame ▸ h
      · exact h.insert (hissued uid hissue) hinsert
    by_cases hkey : s.header.code = Constants.sPublicKey
    · rw [after_respond hversion (by rw [hkey]; rfl)]
      exact (keysFrom_handlePublicKey _ ⟨hversion, hkey⟩ h hstored).run_snd rfl
    by_cases hsign : s.header.code = Constants.reconnect
    · rw [after_respond hversion (by rw [hsign]; rfl)]
      have hhandler : Leaves env (fun w => KeysFrom crypto issued stored w.clients)
          (handleSignInReqeust crypto s.header.uid (handlerArg s.header) s.payload)
          (KeysFrom crypto issued stored) := by
        refine leaves_tryExcept ?_ fun _ => leaves_ofExcept fun w hw => hw
        exact (keysFrom_generateAesKey _).bind fun aes => leaves_ofExcept fun w hw => hw
      exact hhandler.run_snd h
    · rw [clients_after_other hregister hkey hsign]
      exact h
  · have hsame : s.after env crypto = s.before := by rw [after, serve_otherVersion hversion]
    exact hsame ▸ h

end Preserved

/-! ## What the answers need -/

/-- An upload answered with 1603 was decrypted, under a key of an AES size. -/
theorem aesKey_of_upload (hcode : s.header.code = Constants.sendFile)
    (h : s.Answered env crypto Constants.validFileCrc) :
    ∃ row ∈ s.before.clients, row.uuid = s.header.uid ∧ row.aesKey ≠ aesKeyPlaceholder := by
  have hmap : responseMap env crypto s.header.code =
      some (respond (handleEncryptedFile env crypto)) := by rw [hcode]; rfl
  obtain ⟨response, hrun, hresponse⟩ := answered_respond hmap h (by decide)
  rcases run_tryExcept_ok env hrun with hbody | ⟨e, w₁, herror⟩
  · obtain ⟨name, w₁, hname, hbody⟩ := (Program.run_bind_ok _).mp hbody
    obtain ⟨file, w₂, hdecrypt, -⟩ := (Program.run_bind_ok _).mp hbody
    obtain ⟨-, hw₁⟩ := run_removePipePadding_ok.mp hname
    obtain ⟨-, row, hrow, hfile, -⟩ := (run_decryptFile_ok env).mp hdecrypt
    obtain ⟨hmem, huid⟩ := Table.mem_of_find? (hw₁ ▸ hrow)
    refine ⟨row, hmem, of_decide_eq_true huid, fun hplaceholder => ?_⟩
    have hsize : aesKeyPlaceholder.length ≠ 16 ∧ aesKeyPlaceholder.length ≠ 24 ∧
        aesKeyPlaceholder.length ≠ 32 := by decide
    rw [decrypted, decryptedWith, hplaceholder, aesCbcDecrypt, if_pos hsize] at hfile
    cases hfile
  · cases herror
    cases hresponse

/-- A sign-in answered with 1605 recovered the public key in the row. -/
theorem publicKey_of_signIn (hcode : s.header.code = Constants.reconnect)
    (h : s.Answered env crypto Constants.recconectApproved) :
    ∃ row ∈ s.before.clients, row.uuid = s.header.uid ∧ ∃ key, row.Recovers crypto key := by
  have hmap : responseMap env crypto s.header.code =
      some (respond (handleSignInReqeust crypto)) := by rw [hcode]; rfl
  obtain ⟨response, hrun, hresponse⟩ := answered_respond hmap h (by decide)
  rcases run_tryExcept_ok env hrun with hbody | ⟨e, w₁, hdenied⟩
  · obtain ⟨aes, w₁, hgenerate, -⟩ := (Program.run_bind_ok _).mp hbody
    obtain ⟨key, w₂, hrecover, -⟩ := (Program.run_bind_ok _).mp hgenerate
    obtain ⟨-, row, hrow, hkey, -⟩ := run_recoverPublicKey_ok.mp hrecover
    obtain ⟨hmem, huid⟩ := Table.mem_of_find? hrow
    exact ⟨row, hmem, of_decide_eq_true huid, key, hkey⟩
  · -- the denial has another code
    rw [run_ofExcept, initResponse_uid (by decide)] at hdenied
    cases hdenied
    rw [responseCode_uidResponse (by decide)] at hresponse
    cases hresponse

end Step

/-! ## Whole runs -/

section Runs

variable {env : Env} {crypto : Crypto} {disk : Disk} {hist : List Step} {w : World}

/-- In this history `uid` was issued, and later a key exchange stored `key` for
it. -/
def Exchanged (env : Env) (crypto : Crypto) (hist : List Step) (uid : Uid) (key : Bytes) : Prop :=
  ∃ pre issue mid store post, hist = pre ++ issue :: mid ++ store :: post ∧
    issue.Issues env crypto uid ∧ store.header.uid = uid ∧ store.Stores env key

theorem Exchanged.concat {uid : Uid} {key : Bytes} (h : Exchanged env crypto hist uid key)
    (s : Step) : Exchanged env crypto (hist ++ [s]) uid key := by
  obtain ⟨pre, issue, mid, store, post, rfl, hissue, huid, hstore⟩ := h
  exact ⟨pre, issue, mid, store, post ++ [s], by simp, hissue, huid, hstore⟩

/-- **The rows tell the truth** in every world a run leads to. -/
theorem keysFrom_of_run (hrun : Run env crypto (fun _ => True) (.init disk) hist w) :
    KeysFrom crypto (fun uid => ∃ s ∈ hist, s.Issues env crypto uid)
      (Exchanged env crypto hist) w.clients := by
  induction hrun with
  | start => exact .empty
  | @event hist s _ _ ih =>
    refine Step.keysFrom_after (ih.mono ?_ fun uid key h => h.concat s) ?_ ?_
    · rintro uid ⟨e, he, hissue⟩
      exact ⟨e, List.mem_append_left _ he, hissue⟩
    · exact fun uid hissue => ⟨s, List.mem_append_right _ (List.mem_singleton_self s), hissue⟩
    · -- the client of a key that is stored had a row, so its uid was issued before
      intro key hstore
      obtain ⟨row, hrow, huid⟩ := hstore.row
      obtain ⟨issue, hmem, hissue⟩ := ih.issued row hrow
      obtain ⟨pre, mid, rfl⟩ := List.append_of_mem hmem
      exact ⟨pre, issue, mid, s, [], by simp, huid ▸ hissue, rfl, hstore⟩

/-- **No session without registration and key exchange.** Whenever an upload is
answered with 1603 or a sign-in with 1605, the uid was issued by a registration
answered with 1600, and after that a key exchange stored a key of 160 bytes for
it that was accepted as a public key. -/
theorem session_needs_keys {s : Step}
    (hrun : Run env crypto (fun _ => True) (.init disk) hist s.before)
    (h : s.header.code = Constants.sendFile ∧ s.Answered env crypto Constants.validFileCrc ∨
      s.header.code = Constants.reconnect ∧ s.Answered env crypto Constants.recconectApproved) :
    ∃ key, key.length = 160 ∧ Accepted crypto key ∧ Exchanged env crypto hist s.header.uid key := by
  have hkeys := keysFrom_of_run hrun
  obtain ⟨key, haccepted, hexchanged⟩ :
      ∃ key, Accepted crypto key ∧ Exchanged env crypto hist s.header.uid key := by
    rcases h with ⟨hcode, hanswer⟩ | ⟨hcode, hanswer⟩
    · obtain ⟨row, hrow, huid, haes⟩ := Step.aesKey_of_upload hcode hanswer
      exact huid ▸ hkeys.aesKey row hrow haes
    · obtain ⟨row, hrow, huid, rsaKey, hkey⟩ := Step.publicKey_of_signIn hcode hanswer
      exact ⟨row.publicKey, ⟨rsaKey, hkey.2⟩, huid ▸ hkeys.publicKey row hrow hkey.1⟩
  obtain ⟨-, -, -, store, -, -, -, -, hstore⟩ := id hexchanged
  exact ⟨key, hstore.length, haccepted, hexchanged⟩

/-- A client registers and exchanges its key. -/
def enrolment : List (Header × Bytes) :=
  [request (Uid.ofNat 0) 825 [0x75, 0x00], keyRequest (Uid.ofNat 1)]

/-- Then it signs in. -/
def signIn : Step :=
  ⟨(request (Uid.ofNat 1) 827 []).1, [],
    handleAll (.calm Uid.ofNat) toyCrypto (.init .bare) enrolment⟩

theorem signIn_needs_keys :
    signIn.Answered (.calm Uid.ofNat) toyCrypto 1605 ∧
      ∃ key, key.length = 160 ∧ Accepted toyCrypto key ∧
        Exchanged (.calm Uid.ofNat) toyCrypto
          (script (.calm Uid.ofNat) toyCrypto (.init .bare) enrolment) (Uid.ofNat 1) key := by
  have hanswer : signIn.Answered (.calm Uid.ofNat) toyCrypto 1605 := by decide +kernel
  have hrun : Run (.calm Uid.ofNat) toyCrypto (fun _ => True) (.init .bare)
      (script (.calm Uid.ofNat) toyCrypto (.init .bare) enrolment) signIn.before := by
    dsimp only [signIn]
    exact run_script _ _ fun _ _ => trivial
  exact ⟨hanswer, session_needs_keys hrun (.inr ⟨rfl, hanswer⟩)⟩

end Runs

end FileTransfer.Server
