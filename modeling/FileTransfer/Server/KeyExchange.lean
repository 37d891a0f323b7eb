import FileTransfer.Server.Sessions

/-!
# Key exchanges, stage by stage

An 826 stores the public key that was offered; from there on it does what an
827 does: read the public key back, draw an AES key, store it, and answer with
the key encrypted. Each stage is a program of its own, and a time stamp, two
operations long, follows each of the two stores.
-/

namespace FileTransfer.Server

open FileTransfer.Effect

/-- What an 826 and an 827 differ in: the code of the answer, and how they turn
a client down. -/
structure KeyExchange where
  uid : Uid
  code : Nat
  refusal : Bytes

namespace KeyExchange

/-! ## The stages -/

section Stages

variable (crypto : Crypto) (x : KeyExchange)

/-- The response with the encrypted key. -/
def sealed (rsaKey : crypto.RsaKey) (key seed : Bytes) : Except Exn Bytes := do
  let aes ← crypto.oaepEncrypt rsaKey seed key
  let payload := x.uid.bytes ++ aes
  initResponse Constants.version x.code payload.length payload

def encrypt (rsaKey : crypto.RsaKey) (key : Bytes) : Py Handled :=
  .perform (.randomBytes 20)
    (orRefuse x.refusal fun (seed : Bytes) => orRefusal x.refusal (x.sealed crypto rsaKey key seed))

def seen (now : Str) (next : Py Handled) : Py Handled :=
  .perform (.query (.update (.client .lastSeen now) x.uid))
    (orRefuse x.refusal fun (_ : Nat) => next)

def stamp (next : Py Handled) : Py Handled :=
  .perform .now (orRefuse x.refusal fun (now : Str) => x.seen now next)

def store (rsaKey : crypto.RsaKey) (key : Bytes) : Py Handled :=
  .perform (.query (.update (.client .aesKey key) x.uid))
    (orRefuse x.refusal fun (_ : Nat) => x.stamp (x.encrypt crypto rsaKey key))

def draw (rsaKey : crypto.RsaKey) : Py Handled :=
  .perform (.randomBytes Constants.aesKeySize)
    (orRefuse x.refusal fun (key : Bytes) => x.store crypto rsaKey key)

/-- What `recover_public_key` makes of the bytes in the row. -/
def recovered (publicKey : Bytes) : Py Handled :=
  if publicKey = publicKeyPlaceholder then .ret (.response x.refusal)
  else
    match crypto.importKey publicKey with
    | .ok (some rsaKey) =>
      if crypto.hasPrivate rsaKey then .ret (.response x.refusal) else x.draw crypto rsaKey
    | _ => .ret (.response x.refusal)

def recover : Py Handled :=
  .perform (.query (.selectClient .publicKey x.uid)) (orRefuse x.refusal fun
    | none => .ret (.response x.refusal)
    | some (publicKey : Bytes) => x.recovered crypto publicKey)

/-- An 826 starts here, an 827 with `recover`. -/
def offer (publicKey : Bytes) : Py Handled :=
  .perform (.query (.update (.client .publicKey publicKey) x.uid))
    (orRefuse x.refusal fun (_ : Nat) => x.stamp (x.recover crypto))

end Stages

/-! ## The stages are the handlers -/

section Handlers

variable {env : Env} {crypto : Crypto} {x : KeyExchange}

/-- A time stamp, in the middle of the body. -/
theorem guarded_updateEntry {field : ClientField} {data : field.Ty} {body : Py Bytes}
    {next : Py Handled} (hnext : guarded x.refusal body = next) :
    guarded x.refusal (updateEntry (.client field data) x.uid false [] >>= fun _ => body) =
      .perform (.query (.update (.client field data) x.uid))
        (orRefuse x.refusal fun (_ : Nat) => x.stamp next) := by
  refine guarded_perform (fun _ => guarded_perform (fun now => guarded_perform (fun _ => hnext)
    fun e => ?_) fun e => ?_) fun e => ?_
  all_goals cases e <;> rfl

/-- Sealing the AES key and packing the response is the last stage. -/
theorem guarded_encrypt (rsaKey : crypto.RsaKey) (key : Bytes) :
    guarded x.refusal (do
      let aes ← oaepEncrypt crypto rsaKey key
      let payload := x.uid.bytes ++ aes
      ofExcept (initResponse Constants.version x.code payload.length payload)) =
      x.encrypt crypto rsaKey key := by
  refine guarded_perform (fun seed => ?_) fun e => by cases e <;> rfl
  rw [sealed]
  show guarded x.refusal (ofExcept (crypto.oaepEncrypt rsaKey seed key) >>= _) = _
  cases crypto.oaepEncrypt rsaKey seed key with
  | error e => rfl
  | ok aes => exact guarded_ofExcept _ _

/-- Drawing an AES key, storing it and sealing it. -/
theorem guarded_draw (rsaKey : crypto.RsaKey) :
    guarded x.refusal (do
      let aesKey ← getRandomBytes Constants.aesKeySize
      updateEntry (.client .aesKey aesKey) x.uid false []
      let aes ← oaepEncrypt crypto rsaKey aesKey
      let payload := x.uid.bytes ++ aes
      ofExcept (initResponse Constants.version x.code payload.length payload)) =
      x.draw crypto rsaKey := by
  refine guarded_perform (fun key => ?_) fun e => by cases e <;> rfl
  exact guarded_updateEntry (guarded_encrypt rsaKey key)

/-- `generate_aes_key` and the response are the stages from `recover` on. -/
theorem guarded_generateAesKey :
    guarded x.refusal (do
      let aes ← generateAesKey crypto x.uid
      let payload := x.uid.bytes ++ aes
      ofExcept (initResponse Constants.version x.code payload.length payload)) =
      x.recover crypto := by
  -- the key is read back: there may be no row, or a key that cannot be used
  refine guarded_perform (fun found => ?_) fun e => by cases e <;> rfl
  rcases found with _ | publicKey
  · rfl
  · -- the reply was a key, and the rest up to the draw is computed
    show guarded x.refusal ((((if publicKey = publicKeyPlaceholder then raise .invalidPublicKey
      else do
        let rsaKey ← ofExcept (crypto.importKey publicKey)
        recoverPublicKeyExceptions crypto rsaKey) >>= fun rsaKey => do
        let aesKey ← getRandomBytes Constants.aesKeySize
        updateEntry (.client .aesKey aesKey) x.uid false []
        oaepEncrypt crypto rsaKey aesKey) >>= fun aes => do
        let payload := x.uid.bytes ++ aes
        ofExcept (initResponse Constants.version x.code payload.length payload))) =
      x.recovered crypto publicKey
    rw [recovered]
    split
    · rfl
    · cases crypto.importKey publicKey with
      | error e => rfl
      | ok found =>
        cases found with
        | none => rfl
        | some rsaKey =>
          show guarded x.refusal ((recoverPublicKeyExceptions crypto (some rsaKey) >>= _) >>= _) = _
          by_cases hprivate : crypto.hasPrivate rsaKey
          · simp only [recoverPublicKeyExceptions, hprivate, if_true]
            rfl
          · simp only [recoverPublicKeyExceptions, hprivate, Bool.false_eq_true, if_false,
              Program.pure_eq, Program.ret_bind, Program.bind_assoc]
            exact guarded_draw rsaKey

/-- The exchange an 826 or an 827 makes. -/
def ofRequest (j : Header × Bytes) : KeyExchange :=
  if j.1.code = Constants.sPublicKey then ⟨j.1.uid, Constants.inPublicKeyOutAes, errorResponse⟩
  else ⟨j.1.uid, Constants.recconectApproved, uidResponse Constants.recconetDenied j.1.uid⟩

/-- The public key an 826 offers: what is behind the user name. -/
def offeredKey (payload : Bytes) : Bytes := payload.drop (payload.length - Constants.publicKey)

variable {j : Header × Bytes}

/-- **An 827 is the chain from `recover` on.** -/
theorem reqSelect_signIn (hversion : j.1.version = Constants.version)
    (hcode : j.1.code = Constants.reconnect) :
    reqSelect env crypto j.1 j.2 = (ofRequest j).recover crypto := by
  have hmap : responseMap env crypto j.1.code = some (respond (handleSignInReqeust crypto)) := by
    rw [hcode]
    rfl
  have hx : ofRequest j = ⟨j.1.uid, Constants.recconectApproved,
      uidResponse Constants.recconetDenied j.1.uid⟩ := if_neg (by rw [hcode]; decide)
  have hrefuse : (fun _ : Exn => (ofExcept (initResponse Constants.version Constants.recconetDenied
      j.1.uid.bytes.length j.1.uid.bytes) : Py Bytes)) = fun _ => .ret (ofRequest j).refusal := by
    funext e
    rw [initResponse_uid (by decide), hx]
    rfl
  rw [reqSelect_respond hversion hmap, respond, handleSignInReqeust, hrefuse,
    ← guarded_generateAesKey, hx]
  rfl

/-- **An 826 with a key is the chain from `offer` on.** -/
theorem reqSelect_publicKey (hversion : j.1.version = Constants.version)
    (hcode : j.1.code = Constants.sPublicKey) (hpayload : Constants.publicKey < j.2.length) :
    reqSelect env crypto j.1 j.2 = (ofRequest j).offer crypto (offeredKey j.2) := by
  have hmap : responseMap env crypto j.1.code = some (respond (handlePublicKey crypto)) := by
    rw [hcode]
    rfl
  have hx : ofRequest j = ⟨j.1.uid, Constants.inPublicKeyOutAes, errorResponse⟩ := if_pos hcode
  have harg : handlerArg j.1 = Constants.version := by
    rw [handlerArg, if_neg (by rw [hcode]; decide), hversion]
  have hvalid : (validatePublicKeyPayload j.2 : Py Unit) = pure () := by
    rw [validatePublicKeyPayload, if_neg (by omega), if_neg (by omega)]
  rw [reqSelect_respond hversion hmap, respond, handlePublicKey, harg, setPublicKey, hvalid,
    offer, ← guarded_updateEntry guarded_generateAesKey, hx]
  rfl

/-- Any other 826 or 827 is turned down at once. -/
theorem reqSelect_refused
    (h : j.1.version ≠ Constants.version ∨
      j.1.code = Constants.sPublicKey ∧ j.2.length ≤ Constants.publicKey) :
    reqSelect env crypto j.1 j.2 = .ret (.response errorResponse) := by
  by_cases hversion : j.1.version = Constants.version
  · obtain ⟨hcode, hpayload⟩ := h.resolve_left (not_not.mpr hversion)
    have hmap : responseMap env crypto j.1.code = some (respond (handlePublicKey crypto)) := by
      rw [hcode]
      rfl
    have hvalid : (validatePublicKeyPayload j.2 : Py Unit) = raise .invalidPublicKey := by
      rw [validatePublicKeyPayload]
      rcases Nat.lt_or_eq_of_le hpayload with hshort | hshort
      · rw [if_pos hshort]
      · rw [if_neg (by omega), if_pos hshort]
    rw [reqSelect_respond hversion hmap, respond, handlePublicKey, setPublicKey, hvalid]
    rfl
  · rw [reqSelect, if_pos hversion]
    rfl

end Handlers

/-! ## What the stages leave behind -/

section Stages

variable {env : Env} {crypto : Crypto} {x : KeyExchange} {w : World}

theorem responseCode_sealed {rsaKey : crypto.RsaKey} {key seed response : Bytes}
    (h : x.sealed crypto rsaKey key seed = .ok response) : responseCode response = x.code := by
  rw [sealed] at h
  cases haes : crypto.oaepEncrypt rsaKey seed key with
  | error e =>
    rw [haes] at h
    cases h
  | ok aes =>
    rw [haes] at h
    change initResponse _ _ _ _ = _ at h
    simp only [initResponse, packHeader] at h
    split at h
    · cases h
    · next header hheader =>
      split at hheader
      · next hfits =>
        cases hheader
        cases h
        exact responseCode_header hfits.2.1 _ _ _
      · cases hheader

end Stages

end KeyExchange

/-- The keys in the row of a client: the public key, and the AES key. -/
def World.keysOf (w : World) (uid : Uid) : Option (Bytes × Bytes) :=
  (w.clients.find? (·.uuid = uid)).map fun row => (row.publicKey, row.aesKey)

section Keys

variable {env : Env} {w : World} {uid uid' : Uid} {field : ClientField} {data : field.Ty}

theorem find?_setColumn {clients : Table ClientRow.uuid} :
    (setColumn clients uid field data).find? (·.uuid = uid) =
      (clients.find? (·.uuid = uid)).map (·.set field data) := by
  rw [setColumn, Table.find?_update (by simp)]
  refine Option.map_congr fun row hrow => ?_
  exact if_pos (Table.mem_of_find? hrow).2

theorem find?_setColumn_ne {clients : Table ClientRow.uuid} (hne : uid' ≠ uid) :
    (setColumn clients uid' field data).find? (·.uuid = uid) =
      clients.find? (·.uuid = uid) := by
  rw [setColumn, Table.find?_update (by simp)]
  refine (Option.map_congr fun row hrow => ?_).trans Option.map_id'
  have huid : row.uuid = uid := of_decide_eq_true (Table.mem_of_find? hrow).2
  exact if_neg (by simpa [huid] using hne.symm)

/-- An UPDATE of `clients` that works. -/
theorem exec_updateClient (hquery : env.queryFails w.tick = false) :
    exec env (.query (.update (.client field data) uid)) w =
      (.ok (w.clients.count (·.uuid = uid)),
        { w.ticked with clients := setColumn w.clients uid field data }) := by
  simp only [exec, hquery, Bool.false_eq_true, if_false]
  rfl

/-- No operation takes a row away. -/
theorem isSome_keysOf_exec (o : Op) (h : (w.keysOf uid).isSome) :
    ((exec env o w).2.keysOf uid).isSome := by
  simp only [World.keysOf, Option.isSome_map] at h ⊢
  rcases clients_exec o w with hsame | ⟨row, rfl⟩ | ⟨field, data, uid', rfl⟩
  · rw [hsame]
    exact h
  · simp only [exec]
    split
    · exact h
    · simp only [Query.exec]
      cases hinsert : World.clients { w with tick := w.tick + 1 } |>.insert? row with
      | none => exact h
      | some clients =>
        simp only [Table.find?, (Table.insert?_eq_some hinsert).1, List.find?_append]
        rw [Option.isSome_or, Bool.or_eq_true]
        exact .inl h
  · simp only [exec]
    split
    · exact h
    · show Option.isSome ((setColumn w.clients uid' field data).find? _) = true
      rw [setColumn, Table.find?_update (by simp), Option.isSome_map]
      exact h

end Keys

end FileTransfer.Server
