import FileTransfer.Server.KeyExchange

/-!
# What a failed key exchange leaves behind

An 826 stores the offered key, and whether it is a key at all shows when it is
read back; both exchanges store the AES key before it is encrypted. So a client
that is turned down may be left with keys it did not have before. The statements
are assumed to work here; what can fail is the key.
-/

namespace FileTransfer.Server

open FileTransfer.Effect

/-! ## When the keys stay -/

/-- The key in these bytes, if they can be imported and it is a public one. -/
def usableKey (crypto : Crypto) (publicKey : Bytes) : Option crypto.RsaKey :=
  if publicKey = publicKeyPlaceholder then none
  else
    match crypto.importKey publicKey with
    | .ok (some rsaKey) => if crypto.hasPrivate rsaKey then none else some rsaKey
    | _ => none

/-- The AES key that an exchange draws which reads the public key at `tick`. -/
def drawnKey (env : Env) (tick : Nat) : Bytes := env.randomBytes (tick + 1) Constants.aesKeySize

/-- That key can be encrypted, and the result fits in a response. -/
def Seals (env : Env) (crypto : Crypto) (rsaKey : crypto.RsaKey) (tick : Nat) : Prop :=
  ∃ aes, crypto.oaepEncrypt rsaKey (env.randomBytes (tick + 5) 20) (drawnKey env tick) = .ok aes ∧
    16 + aes.length < 2 ^ 32

namespace Step

variable (env : Env) (crypto : Crypto) (s : Step)

/-- An 826 answered with 1607 and an 827 answered with 1606 leave the keys in the
client's row as they were. -/
def KeysIntact : Prop :=
  (s.header.code = Constants.sPublicKey → s.Answered env crypto Constants.generalError →
    (s.after env crypto).keysOf s.header.uid = s.before.keysOf s.header.uid) ∧
  (s.header.code = Constants.reconnect → s.Answered env crypto Constants.recconetDenied →
    (s.after env crypto).keysOf s.header.uid = s.before.keysOf s.header.uid)

/-- An 826 offers the key the client has already, or a key that can be used and
sealed to. If it draws an AES key that is not sent, that is the one the client
has already, too. -/
def OffersWell : Prop :=
  ∀ row, s.before.clients.find? (·.uuid = s.header.uid) = some row →
    (usableKey crypto (KeyExchange.offeredKey s.payload) = none →
      KeyExchange.offeredKey s.payload = row.publicKey) ∧
    ∀ rsaKey, usableKey crypto (KeyExchange.offeredKey s.payload) = some rsaKey →
      Seals env crypto rsaKey (s.before.tick + 3) ∨
        KeyExchange.offeredKey s.payload = row.publicKey ∧
          drawnKey env (s.before.tick + 3) = row.aesKey

/-- An 827 finds no key it can use, or one it can seal to, or it draws the AES key
the client has already. -/
def SignsInWell : Prop :=
  ∀ row rsaKey, s.before.clients.find? (·.uuid = s.header.uid) = some row →
    usableKey crypto row.publicKey = some rsaKey →
    Seals env crypto rsaKey s.before.tick ∨ drawnKey env s.before.tick = row.aesKey

/-- When the keys stay: the request is not of this version, or too short to offer
a key, or its exchange goes well. -/
def KeepsKeys : Prop :=
  s.header.version = Constants.version →
    (s.header.code = Constants.sPublicKey → Constants.publicKey < s.payload.length →
      s.OffersWell env crypto) ∧
    (s.header.code = Constants.reconnect → s.SignsInWell env crypto)

end Step

/-! ## The stages, with statements that work -/

namespace KeyExchange

variable {env : Env} {crypto : Crypto} {x : KeyExchange} {w : World}

/-- Bytes that hold no public key end the exchange. -/
theorem recovered_none {publicKey : Bytes} (h : usableKey crypto publicKey = none) :
    x.recovered crypto publicKey = .ret (.response x.refusal) := by
  rw [recovered]
  rw [usableKey] at h
  by_cases hplaceholder : publicKey = publicKeyPlaceholder
  · rw [if_pos hplaceholder]
  · rw [if_neg hplaceholder] at h ⊢
    cases himport : crypto.importKey publicKey with
    | error e => rfl
    | ok found =>
      rw [himport] at h
      cases found with
      | none => rfl
      | some rsaKey => exact if_pos (by by_contra hprivate; simp [hprivate] at h)

theorem recovered_some {publicKey : Bytes} {rsaKey : crypto.RsaKey}
    (h : usableKey crypto publicKey = some rsaKey) :
    x.recovered crypto publicKey = x.draw crypto rsaKey := by
  rw [recovered]
  rw [usableKey] at h
  by_cases hplaceholder : publicKey = publicKeyPlaceholder
  · rw [if_pos hplaceholder] at h
    cases h
  · rw [if_neg hplaceholder] at h ⊢
    cases himport : crypto.importKey publicKey with
    | error e =>
      rw [himport] at h
      cases h
    | ok found =>
      rw [himport] at h
      cases found with
      | none => cases h
      | some rsaKey' =>
        by_cases hprivate : crypto.hasPrivate rsaKey'
        · simp [hprivate] at h
        · simp only [if_neg hprivate, Option.some_inj] at h ⊢
          rw [h]

/-- Sealing works or the answer is the refusal. -/
theorem sealed_ok_iff {rsaKey : crypto.RsaKey} {tick : Nat} (hcode : x.code < 2 ^ 16) :
    (∃ response, x.sealed crypto rsaKey (drawnKey env tick) (env.randomBytes (tick + 5) 20) =
      .ok response) ↔ Seals env crypto rsaKey tick := by
  rw [Seals, sealed]
  cases crypto.oaepEncrypt rsaKey (env.randomBytes (tick + 5) 20) (drawnKey env tick) with
  | error e =>
    constructor
    · intro h
      obtain ⟨response, h⟩ := h
      cases h
    · intro h
      obtain ⟨aes, h, -⟩ := h
      cases h
  | ok aes =>
    have hlength : (x.uid.bytes ++ aes).length = 16 + aes.length := by
      rw [List.length_append, x.uid.length_eq]
    show (∃ response, initResponse Constants.version x.code (x.uid.bytes ++ aes).length
      (x.uid.bytes ++ aes) = .ok response) ↔ _
    rw [initResponse, packHeader, hlength]
    by_cases hfits : 16 + aes.length < 2 ^ 32
    · have hall : Constants.version < 2 ^ 8 ∧ x.code < 2 ^ 16 ∧ 16 + aes.length < 2 ^ 32 :=
        ⟨by decide, hcode, hfits⟩
      rw [if_pos hall]
      simpa using hfits
    · have hnot : ¬ (Constants.version < 2 ^ 8 ∧ x.code < 2 ^ 16 ∧ 16 + aes.length < 2 ^ 32) :=
        fun h => hfits h.2.2
      rw [if_neg hnot]
      simpa using hfits

theorem run_orRefusal_world (refusal : Bytes) (r : Except Exn Bytes) :
    (Program.run (exec env) (orRefusal refusal r) w).2 = w := by
  cases r <;> rfl

section Working

variable (hquery : ∀ t, env.queryFails t = false)
include hquery

theorem run_stamp (next : Py Handled) :
    Program.run (exec env) (x.stamp next) w =
      Program.run (exec env) next { w with
        clients := setColumn w.clients x.uid .lastSeen (env.now w.tick)
        tick := w.tick + 2 } := by
  have hseen : Program.run (exec env) (x.stamp next) w =
      Program.run (exec env) (x.seen (env.now w.tick) next) w.ticked := rfl
  rw [hseen, seen, Program.run_perform, exec_updateClient (hquery _)]
  rfl

/-- From the draw on: the AES key is stored, and then sealed or not. -/
theorem run_draw {row : ClientRow} (hrow : w.clients.find? (·.uuid = x.uid) = some row)
    (rsaKey : crypto.RsaKey) :
    ∃ w', Program.run (exec env) (x.draw crypto rsaKey) w.ticked =
        Program.run (exec env) (orRefusal x.refusal (x.sealed crypto rsaKey (drawnKey env w.tick)
          (env.randomBytes (w.tick + 5) 20))) w' ∧
      w'.keysOf x.uid = some (row.publicKey, drawnKey env w.tick) := by
  have hstore : Program.run (exec env) (x.draw crypto rsaKey) w.ticked =
      Program.run (exec env) (x.stamp (x.encrypt crypto rsaKey (drawnKey env w.tick)))
        { w with
          clients := setColumn w.clients x.uid .aesKey (drawnKey env w.tick)
          tick := w.tick + 3 } := by
    have hdraw : Program.run (exec env) (x.draw crypto rsaKey) w.ticked =
        Program.run (exec env) (x.store crypto rsaKey (drawnKey env w.tick)) w.ticked.ticked := rfl
    rw [hdraw, store, Program.run_perform, exec_updateClient (hquery _)]
    rfl
  refine ⟨{ w with
    clients := setColumn (setColumn w.clients x.uid .aesKey (drawnKey env w.tick)) x.uid .lastSeen
      (env.now (w.tick + 3))
    tick := w.tick + 6 }, ?_, ?_⟩
  · rw [hstore, run_stamp hquery, encrypt, Program.run_perform]
    rfl
  · rw [World.keysOf, find?_setColumn, find?_setColumn, hrow]
    rfl

/-- Reading the public key back. -/
theorem run_recover {row : ClientRow} (hrow : w.clients.find? (·.uuid = x.uid) = some row) :
    Program.run (exec env) (x.recover crypto) w =
      Program.run (exec env) (x.recovered crypto row.publicKey) w.ticked := by
  have hselect : exec env (.query (.selectClient .publicKey x.uid)) w =
      (.ok (some row.publicKey), w.ticked) := by
    simp only [exec, hquery, Bool.false_eq_true, if_false, Query.exec, hrow]
    rfl
  rw [recover, Program.run_perform, hselect]
  rfl

/-- Nobody to look up. -/
theorem run_recover_unknown (hrow : w.clients.find? (·.uuid = x.uid) = none) :
    Program.run (exec env) (x.recover crypto) w = (.ok (.response x.refusal), w.ticked) := by
  have hselect : exec env (.query (.selectClient .publicKey x.uid)) w = (.ok none, w.ticked) := by
    simp only [exec, hquery, Bool.false_eq_true, if_false, Query.exec, hrow]
    rfl
  rw [recover, Program.run_perform, hselect]
  rfl

theorem run_offer (publicKey : Bytes) :
    Program.run (exec env) (x.offer crypto publicKey) w =
      Program.run (exec env) (x.recover crypto) { w with
        clients := setColumn (setColumn w.clients x.uid .publicKey publicKey) x.uid .lastSeen
          (env.now (w.tick + 1))
        tick := w.tick + 3 } := by
  rw [offer, Program.run_perform, exec_updateClient (hquery _)]
  exact run_stamp hquery _

/-- The answer has the code of the refusal. -/
def Refused (env : Env) (x : KeyExchange) (p : Py Handled) (w : World) : Prop :=
  ∃ response, (Program.run (exec env) p w).1 = .ok (.response response) ∧
    responseCode response = responseCode x.refusal

/-- Once the AES key is drawn, an exchange is refused for one reason. -/
theorem refused_draw {row : ClientRow} (hrow : w.clients.find? (·.uuid = x.uid) = some row)
    (hcode : x.code < 2 ^ 16) (hother : responseCode x.refusal ≠ x.code)
    (rsaKey : crypto.RsaKey) :
    Refused env x (x.draw crypto rsaKey) w.ticked ↔ ¬ Seals env crypto rsaKey w.tick := by
  obtain ⟨w', hrun, -⟩ := run_draw hquery hrow rsaKey
  rw [Refused, hrun, ← sealed_ok_iff hcode]
  cases hsealed : x.sealed crypto rsaKey (drawnKey env w.tick)
      (env.randomBytes (w.tick + 5) 20) with
  | error e => simp [orRefusal]
  | ok response =>
    have hresponse := responseCode_sealed hsealed
    simpa [orRefusal, hresponse] using hother.symm

/-- **What a refusal leaves in the row**, from the moment the public key is read:
it leaves `keys` exactly if they are there and no AES key is drawn, or if drawing
one changes nothing. -/
theorem recover_keeps_iff {row : ClientRow} (publicKey aesKey : Bytes)
    (hrow : w.clients.find? (·.uuid = x.uid) = some row) (hcode : x.code < 2 ^ 16)
    (hother : responseCode x.refusal ≠ x.code) :
    (Refused env x (x.recover crypto) w →
      (Program.run (exec env) (x.recover crypto) w).2.keysOf x.uid = some (publicKey, aesKey)) ↔
    (usableKey crypto row.publicKey = none → row.publicKey = publicKey ∧ row.aesKey = aesKey) ∧
      ∀ rsaKey, usableKey crypto row.publicKey = some rsaKey → Seals env crypto rsaKey w.tick ∨
        row.publicKey = publicKey ∧ drawnKey env w.tick = aesKey := by
  have hrun : Program.run (exec env) (x.recover crypto) w = _ := run_recover hquery hrow
  cases husable : usableKey crypto row.publicKey with
  | none =>
    rw [recovered_none husable] at hrun
    have hkeys : w.ticked.keysOf x.uid = some (row.publicKey, row.aesKey) := by
      show (w.clients.find? (·.uuid = x.uid)).map _ = _
      rw [hrow]
      rfl
    rw [Refused, hrun]
    show (_ → w.ticked.keysOf x.uid = _) ↔ _
    rw [hkeys]
    simp
  | some rsaKey =>
    rw [recovered_some husable] at hrun
    obtain ⟨w', hdraw, hkeys⟩ := run_draw hquery hrow rsaKey
    have hrefused : Refused env x (x.recover crypto) w ↔ ¬ Seals env crypto rsaKey w.tick := by
      rw [Refused, hrun]
      exact refused_draw hquery hrow hcode hother rsaKey
    rw [hrefused, hrun, hdraw, run_orRefusal_world, hkeys, Option.some_inj, Prod.mk.injEq,
      ← or_iff_not_imp_left]
    constructor
    · intro h
      refine ⟨fun hnone => absurd hnone (Option.some_ne_none _), fun rsaKey' hsome => ?_⟩
      obtain rfl := Option.some.inj hsome
      exact h
    · exact fun h => h.2 rsaKey rfl

end Working

end KeyExchange

/-! ## The requests -/

section Keys

variable {w : World} {uid : Uid}

theorem keysOf_eq_some {row : ClientRow} (hrow : w.clients.find? (·.uuid = uid) = some row) :
    w.keysOf uid = some (row.publicKey, row.aesKey) := by
  rw [World.keysOf, hrow]
  rfl

theorem keysOf_eq_none (hrow : w.clients.find? (·.uuid = uid) = none) : w.keysOf uid = none := by
  rw [World.keysOf, hrow]
  rfl

end Keys

namespace Step

variable {env : Env} {crypto : Crypto} {s : Step}

/-- A request that changes nothing keeps the keys. -/
theorem keysIntact_of_same (h : s.after env crypto = s.before) : s.KeysIntact env crypto := by
  constructor
  · intro _ _
    rw [h]
  · intro _ _
    rw [h]

/-- Served as an exchange, a request keeps the keys if the exchange does where it is
refused. -/
theorem keysIntact_iff_recover {x : KeyExchange} {w : World} (huid : x.uid = s.header.uid)
    (hserve : serve env crypto s.header s.payload s.before =
      Program.run (exec env) (x.recover crypto) w)
    (hcode : s.header.code = Constants.sPublicKey ∧
        responseCode x.refusal = Constants.generalError ∨
      s.header.code = Constants.reconnect ∧
        responseCode x.refusal = Constants.recconetDenied) :
    s.KeysIntact env crypto ↔ (KeyExchange.Refused env x (x.recover crypto) w →
      (Program.run (exec env) (x.recover crypto) w).2.keysOf x.uid =
        s.before.keysOf x.uid) := by
  have hanswered : s.Answered env crypto (responseCode x.refusal) ↔
      KeyExchange.Refused env x (x.recover crypto) w := by
    rw [answered_iff, KeyExchange.Refused, hserve]
  have hcodes : Constants.sPublicKey ≠ Constants.reconnect := by decide
  rcases hcode with ⟨hcode, hrefusal⟩ | ⟨hcode, hrefusal⟩
  · rw [hrefusal] at hanswered
    rw [KeysIntact, hanswered, after, hserve, huid]
    exact ⟨fun h => h.1 hcode,
      fun h => ⟨fun _ => h, fun hsign => absurd (hcode.symm.trans hsign) hcodes⟩⟩
  · rw [hrefusal] at hanswered
    rw [KeysIntact, hanswered, after, hserve, huid]
    exact ⟨fun h => h.2 hcode,
      fun h => ⟨fun hkey => absurd (hkey.symm.trans hcode) hcodes, fun _ => h⟩⟩

variable (hquery : ∀ t, env.queryFails t = false)
include hquery

/-- **An 827.** -/
theorem signIn_keeps_iff (hversion : s.header.version = Constants.version)
    (hcode : s.header.code = Constants.reconnect) :
    s.KeysIntact env crypto ↔ s.SignsInWell env crypto := by
  obtain ⟨x, hx⟩ : ∃ x : KeyExchange, x = ⟨s.header.uid, Constants.recconectApproved,
      uidResponse Constants.recconetDenied s.header.uid⟩ := ⟨_, rfl⟩
  have huid : x.uid = s.header.uid := by rw [hx]
  have hrefusal : responseCode x.refusal = Constants.recconetDenied := by
    rw [hx]
    exact responseCode_uidResponse (by decide) _
  have hxcode : x.code = Constants.recconectApproved := by rw [hx]
  have hserve : serve env crypto s.header s.payload s.before =
      Program.run (exec env) (x.recover crypto) s.before := by
    have hother : s.header.code ≠ Constants.sPublicKey := by
      rw [hcode]
      decide
    rw [serve, KeyExchange.reqSelect_signIn (j := (s.header, s.payload)) hversion hcode,
      KeyExchange.ofRequest, if_neg hother, hx]
  rw [keysIntact_iff_recover huid hserve (.inr ⟨hcode, hrefusal⟩), SignsInWell, ← huid]
  cases hrow : s.before.clients.find? (·.uuid = x.uid) with
  | none =>
    rw [KeyExchange.run_recover_unknown hquery hrow]
    exact iff_of_true (fun _ => rfl) fun _ _ h => by cases h
  | some row =>
    rw [keysOf_eq_some hrow, KeyExchange.recover_keeps_iff hquery _ _ hrow
      (by rw [hxcode]; decide) (by rw [hxcode, hrefusal]; decide)]
    constructor
    · intro h row' rsaKey hrow' husable
      obtain rfl := Option.some.inj hrow'
      exact (h.2 rsaKey husable).imp_right And.right
    · intro h
      refine ⟨fun _ => ⟨rfl, rfl⟩, fun rsaKey husable => ?_⟩
      exact (h row rsaKey rfl husable).imp_right fun hsame => ⟨rfl, hsame⟩

/-- **An 826 with a key.** -/
theorem offer_keeps_iff (hversion : s.header.version = Constants.version)
    (hcode : s.header.code = Constants.sPublicKey)
    (hpayload : Constants.publicKey < s.payload.length) :
    s.KeysIntact env crypto ↔ s.OffersWell env crypto := by
  obtain ⟨x, hx⟩ : ∃ x : KeyExchange,
      x = ⟨s.header.uid, Constants.inPublicKeyOutAes, errorResponse⟩ := ⟨_, rfl⟩
  obtain ⟨key, hkey⟩ : ∃ key, key = KeyExchange.offeredKey s.payload := ⟨_, rfl⟩
  have huid : x.uid = s.header.uid := by rw [hx]
  have hrefusal : responseCode x.refusal = Constants.generalError := by
    rw [hx]
    exact responseCode_errorResponse
  have hxcode : x.code = Constants.inPublicKeyOutAes := by rw [hx]
  -- the world in which the key is read back
  obtain ⟨w, hw⟩ : ∃ w : World, w = { s.before with
      clients := setColumn (setColumn s.before.clients x.uid .publicKey key) x.uid .lastSeen
        (env.now (s.before.tick + 1))
      tick := s.before.tick + 3 } := ⟨_, rfl⟩
  have htick : w.tick = s.before.tick + 3 := by rw [hw]
  have hfind : w.clients.find? (·.uuid = x.uid) =
      (s.before.clients.find? (·.uuid = x.uid)).map fun row =>
        (row.set .publicKey key).set .lastSeen (env.now (s.before.tick + 1)) := by
    rw [hw, find?_setColumn, find?_setColumn, Option.map_map]
    rfl
  have hserve : serve env crypto s.header s.payload s.before =
      Program.run (exec env) (x.recover crypto) w := by
    rw [serve, KeyExchange.reqSelect_publicKey (j := (s.header, s.payload)) hversion hcode hpayload,
      KeyExchange.ofRequest, if_pos hcode, ← hx, KeyExchange.run_offer hquery, hw, hkey]
  rw [keysIntact_iff_recover huid hserve (.inl ⟨hcode, hrefusal⟩), OffersWell, ← huid, ← hkey,
    ← htick]
  cases hrow : s.before.clients.find? (·.uuid = x.uid) with
  | none =>
    rw [hrow, Option.map_none] at hfind
    rw [KeyExchange.run_recover_unknown hquery hfind, keysOf_eq_none hrow]
    exact iff_of_true (fun _ => keysOf_eq_none (w := w.ticked) hfind) fun _ h => by cases h
  | some row =>
    rw [hrow, Option.map_some] at hfind
    rw [keysOf_eq_some hrow, KeyExchange.recover_keeps_iff hquery _ _ hfind
      (by rw [hxcode]; decide) (by rw [hxcode, hrefusal]; decide)]
    constructor
    · intro h row' hrow'
      obtain rfl := Option.some.inj hrow'
      exact ⟨fun hnone => (h.1 hnone).1, h.2⟩
    · intro h
      obtain ⟨hnone, hsome⟩ := h row rfl
      exact ⟨fun hunusable => ⟨hnone hunusable, rfl⟩, hsome⟩

/-- **When a failed exchange leaves the keys alone**: exactly if what it stored on
the way was there already, or nothing was stored. -/
theorem keysIntact_iff : s.KeysIntact env crypto ↔ s.KeepsKeys env crypto := by
  by_cases hversion : s.header.version = Constants.version
  · by_cases hkey : s.header.code = Constants.sPublicKey
    · have hsign : s.header.code ≠ Constants.reconnect := by
        rw [hkey]
        decide
      by_cases hpayload : Constants.publicKey < s.payload.length
      · rw [offer_keeps_iff hquery hversion hkey hpayload]
        exact ⟨fun h _ => ⟨fun _ _ => h, fun hcode => absurd hcode hsign⟩,
          fun h => (h hversion).1 hkey hpayload⟩
      · have hrefused := @KeyExchange.reqSelect_refused env crypto (s.header, s.payload)
          (.inr ⟨hkey, Nat.le_of_not_lt hpayload⟩)
        refine iff_of_true (keysIntact_of_same ?_) fun _ =>
          ⟨fun _ hlong => absurd hlong hpayload, fun hcode => absurd hcode hsign⟩
        rw [after, serve, hrefused]
        rfl
    · by_cases hsign : s.header.code = Constants.reconnect
      · rw [signIn_keeps_iff hquery hversion hsign]
        exact ⟨fun h _ => ⟨fun hcode => absurd hcode hkey, fun _ => h⟩,
          fun h => (h hversion).2 hsign⟩
      · exact iff_of_true ⟨fun hcode => absurd hcode hkey, fun hcode => absurd hcode hsign⟩
          fun _ => ⟨fun hcode => absurd hcode hkey, fun hcode => absurd hcode hsign⟩
  · refine iff_of_true (keysIntact_of_same ?_) fun h => absurd h hversion
    rw [after, serve, reqSelect, if_pos hversion]
    rfl

end Step

/-! ## A key that cannot be imported -/

/-- Algorithms that import one key only. -/
def pickyCrypto : Crypto where
  RsaKey := Unit
  importKey b := if b = List.replicate 160 0 then .ok (some ()) else .error .valueError
  hasPrivate _ := false
  oaepEncrypt _ seed message := .ok (seed ++ message)
  aesDecryptBlock _ := swapBlock

/-- A key exchange that offers 160 bytes which are no key. -/
def brokenRequest (uid : Uid) : Header × Bytes :=
  request uid 826 ([0x75, 0x00] ++ List.replicate 160 1)

/-- A client that registered and exchanged its key offers a broken one. -/
def brokenOffer : Step :=
  ⟨(brokenRequest (Uid.ofNat 1)).1, (brokenRequest (Uid.ofNat 1)).2,
    handleAll (.calm Uid.ofNat) pickyCrypto (.init .bare) enrolment⟩

/-- **It is turned down with 1607, and its good key is gone.** -/
theorem brokenOffer_loses_key :
    (∃ hist, Run (.calm Uid.ofNat) pickyCrypto (fun _ => True) (.init .bare) hist
      brokenOffer.before) ∧
    brokenOffer.header.code = 826 ∧
    brokenOffer.Answered (.calm Uid.ofNat) pickyCrypto 1607 ∧
    (brokenOffer.before.keysOf (Uid.ofNat 1)).map Prod.fst = some (List.replicate 160 0) ∧
    ((brokenOffer.after (.calm Uid.ofNat) pickyCrypto).keysOf (Uid.ofNat 1)).map Prod.fst =
      some (List.replicate 160 1) ∧
    ¬ brokenOffer.KeysIntact (.calm Uid.ofNat) pickyCrypto := by
  have hanswer : brokenOffer.Answered (.calm Uid.ofNat) pickyCrypto 1607 := by decide +kernel
  have hbefore : (brokenOffer.before.keysOf (Uid.ofNat 1)).map Prod.fst =
      some (List.replicate 160 0) := by decide +kernel
  have hafter : ((brokenOffer.after (.calm Uid.ofNat) pickyCrypto).keysOf (Uid.ofNat 1)).map
      Prod.fst = some (List.replicate 160 1) := by decide +kernel
  refine ⟨?_, rfl, hanswer, hbefore, hafter, fun h => ?_⟩
  · dsimp only [brokenOffer]
    exact ⟨_, run_script _ _ fun _ _ => trivial⟩
  · have hsame := congrArg (Option.map Prod.fst) (h.1 rfl hanswer)
    rw [show brokenOffer.header.uid = Uid.ofNat 1 from rfl, hbefore, hafter] at hsame
    exact absurd hsame (by decide)

/-- The same client offers the broken key once more. -/
def brokenOfferAgain : Step :=
  ⟨(brokenRequest (Uid.ofNat 1)).1, (brokenRequest (Uid.ofNat 1)).2,
    brokenOffer.after (.calm Uid.ofNat) pickyCrypto⟩

/-- This time nothing is lost that was there. -/
theorem brokenOfferAgain_keeps_keys :
    brokenOfferAgain.Answered (.calm Uid.ofNat) pickyCrypto 1607 ∧
      brokenOfferAgain.KeysIntact (.calm Uid.ofNat) pickyCrypto := by
  refine ⟨by decide +kernel, (Step.keysIntact_iff fun _ => rfl).mpr fun _ => ⟨fun _ _ => ?_, ?_⟩⟩
  · intro row hrow
    have hunusable : usableKey pickyCrypto (KeyExchange.offeredKey brokenOfferAgain.payload) =
        none := by decide +kernel
    have hkey : (brokenOfferAgain.before.clients.find? (·.uuid = brokenOfferAgain.header.uid)).map
        (·.publicKey) = some (KeyExchange.offeredKey brokenOfferAgain.payload) := by decide +kernel
    rw [hrow] at hkey
    refine ⟨fun _ => (Option.some.inj hkey).symm, fun rsaKey husable => ?_⟩
    rw [hunusable] at husable
    cases husable
  · intro hcode
    cases hcode

end FileTransfer.Server
