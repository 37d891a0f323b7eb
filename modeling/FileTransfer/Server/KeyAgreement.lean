import FileTransfer.Server.Concurrency
import FileTransfer.Server.KeyExchange

/-!
# Key exchanges that interleave

A key is stored in one operation and sent four operations later. In between
another thread can store a key for the same client, and answer first; the
client is then left with a key that is not in its row any more. `Pends` says
where the invariant rests: some thread has still to store a key or to answer
with the one in the row. Where no thread does, the last answer carried it.
-/

namespace FileTransfer.Server

open FileTransfer.Effect

/-! ## Keys in answers -/

/-- An 826 or an 827 of the client. -/
def Exchanges (uid : Uid) (j : Header × Bytes) : Prop :=
  j.1.uid = uid ∧ (j.1.code = Constants.sPublicKey ∨ j.1.code = Constants.reconnect)

/-- A 1602 or a 1605. -/
def IsKeyAnswer (r : Except Raised Handled) : Prop :=
  answerCode r = some Constants.inPublicKeyOutAes ∨ answerCode r = some Constants.recconectApproved

instance : DecidablePred IsKeyAnswer := fun r =>
  inferInstanceAs (Decidable (answerCode r = some Constants.inPublicKeyOutAes ∨
    answerCode r = some Constants.recconectApproved))

/-- A 1602 or a 1605 for the client. -/
def KeyAnswer (uid : Uid) (x : (Header × Bytes) × Except Raised Handled) : Prop :=
  Exchanges uid x.1 ∧ IsKeyAnswer x.2

instance (uid : Uid) : DecidablePred (Exchanges uid) := fun j =>
  inferInstanceAs (Decidable (j.1.uid = uid ∧
    (j.1.code = Constants.sPublicKey ∨ j.1.code = Constants.reconnect)))

instance (uid : Uid) : DecidablePred (KeyAnswer uid) := fun x =>
  inferInstanceAs (Decidable (Exchanges uid x.1 ∧ IsKeyAnswer x.2))

/-- The last key the client was sent. -/
def lastKeyAnswer (uid : Uid) (c : Threads) : Option ((Header × Bytes) × Except Raised Handled) :=
  c.answered.reverse.find? fun x => decide (KeyAnswer uid x)

namespace KeyExchange

variable (crypto : Crypto) (offered : Bytes → Prop) (x : KeyExchange)

/-- The public key is one that was offered. -/
def Imported (rsaKey : crypto.RsaKey) : Prop :=
  ∃ publicKey, offered publicKey ∧ crypto.importKey publicKey = .ok (some rsaKey)

/-- The response carries `key`, encrypted under a public key that was offered. -/
def Carries (key response : Bytes) : Prop :=
  ∃ rsaKey seed, Imported crypto offered rsaKey ∧ seed.length = 20 ∧
    x.sealed crypto rsaKey key seed = .ok response

/-! ## Where an exchange is -/

/-- The public key is recovered, and a key will be stored. -/
def Committed (p : Py Handled) : Prop :=
  ∃ rsaKey, Imported crypto offered rsaKey ∧
    (p = x.draw crypto rsaKey ∨ ∃ key, p = x.store crypto rsaKey key)

/-- `key` is stored and has still to be sent. -/
inductive Holds (key : Bytes) : Py Handled → Prop where
  | stamp {rsaKey : crypto.RsaKey} (h : Imported crypto offered rsaKey) :
      Holds key (x.stamp (x.encrypt crypto rsaKey key))
  | seen {rsaKey : crypto.RsaKey} {now : Str} (h : Imported crypto offered rsaKey) :
      Holds key (x.seen now (x.encrypt crypto rsaKey key))
  | encrypt {rsaKey : crypto.RsaKey} (h : Imported crypto offered rsaKey) :
      Holds key (x.encrypt crypto rsaKey key)
  | answered {response : Bytes} (h : Carries crypto offered x key response) :
      Holds key (.ret (.response response))

/-- The thread has still to store a key, or to send the one in the row. -/
def Pends (w : World) (p : Py Handled) : Prop :=
  ∃ keys, w.keysOf x.uid = some keys ∧
    (Committed crypto offered x p ∨ Holds crypto offered x keys.2 p)

/-- Where a thread can be in an exchange. -/
inductive KeyStage (w : World) : Py Handled → Prop where
  | offer {publicKey : Bytes} (h : offered publicKey) : KeyStage w (x.offer crypto publicKey)
  | offerStamp : KeyStage w (x.stamp (x.recover crypto))
  | offerSeen {now : Str} : KeyStage w (x.seen now (x.recover crypto))
  | recover : KeyStage w (x.recover crypto)
  | committed {p : Py Handled} (hrow : (w.keysOf x.uid).isSome)
      (h : Committed crypto offered x p) : KeyStage w p
  | holds {key : Bytes} {p : Py Handled} (h : Holds crypto offered x key p) : KeyStage w p
  | refused {r : Except Raised Handled} (h : ¬ IsKeyAnswer r) : KeyStage w (.ofResult r)

variable {crypto offered x} {env : Env} {w w' : World} {p : Py Handled} {key : Bytes}

theorem KeyStage.mono (h : KeyStage crypto offered x w p)
    (hrow : (w.keysOf x.uid).isSome → (w'.keysOf x.uid).isSome) :
    KeyStage crypto offered x w' p := by
  cases h with
  | offer h => exact .offer h
  | offerStamp => exact .offerStamp
  | offerSeen => exact .offerSeen
  | recover => exact .recover
  | committed hsome h => exact .committed (hrow hsome) h
  | holds h => exact .holds h
  | refused h => exact .refused h

/-- Offering more keys takes nothing away. -/
theorem Pends.mono {offered' : Bytes → Prop} (h : Pends crypto offered x w p)
    (hoffered : ∀ publicKey, offered publicKey → offered' publicKey) :
    Pends crypto offered' x w p := by
  have himported : ∀ {rsaKey}, Imported crypto offered rsaKey → Imported crypto offered' rsaKey :=
    fun ⟨publicKey, hkey, himport⟩ => ⟨publicKey, hoffered _ hkey, himport⟩
  obtain ⟨keys, hkeys, ⟨rsaKey, hkey, h⟩ | h⟩ := h
  · exact ⟨keys, hkeys, .inl ⟨rsaKey, himported hkey, h⟩⟩
  · refine ⟨keys, hkeys, .inr ?_⟩
    cases h with
    | stamp h => exact .stamp (himported h)
    | seen h => exact .seen (himported h)
    | encrypt h => exact .encrypt (himported h)
    | answered h =>
      obtain ⟨rsaKey, seed, hkey, h⟩ := h
      exact .answered ⟨rsaKey, seed, himported hkey, h⟩

/-! ## One operation of an exchange -/

/-- The operation does not fail: a statement works, and so does an encryption. -/
structure Succeeds (env : Env) (crypto : Crypto) (x : KeyExchange) (w : World) (p : Py Handled) :
    Prop where
  query : env.queryFails w.tick = false
  encrypt : ∀ rsaKey key, p = x.encrypt crypto rsaKey key →
    ∃ response, x.sealed crypto rsaKey key (env.randomBytes w.tick 20) = .ok response

variable {o : Op} {k : Except Raised o.Reply → Py Handled}

theorem Pends.stage (h : Pends crypto offered x w p) : KeyStage crypto offered x w p := by
  obtain ⟨keys, hkeys, h | h⟩ := h
  · exact .committed (Option.isSome_iff_exists.mpr ⟨keys, hkeys⟩) h
  · exact .holds h

/-- From the draw on, a key will be in the row, and it will be sent. The public
key stays. -/
theorem Committed.advance (h : Committed crypto offered x (.perform o k))
    (hquery : env.queryFails w.tick = false) (hrow : (w.keysOf x.uid).isSome) :
    Pends crypto offered x (exec env o w).2 (k (exec env o w).1) ∧
      ((exec env o w).2.keysOf x.uid).map Prod.fst = (w.keysOf x.uid).map Prod.fst := by
  obtain ⟨rsaKey, hkey, h | ⟨key, h⟩⟩ := h
  · obtain ⟨keys, hkeys⟩ := Option.isSome_iff_exists.mp hrow
    cases h
    exact ⟨⟨keys, hkeys, .inl ⟨rsaKey, hkey, .inr ⟨_, rfl⟩⟩⟩, rfl⟩
  · obtain ⟨row, hrow⟩ := Option.isSome_iff_exists.mp (by simpa [World.keysOf] using hrow)
    cases h
    rw [exec_updateClient hquery]
    have hkeys : World.keysOf { w.ticked with
        clients := setColumn w.clients x.uid .aesKey key } x.uid = some (row.publicKey, key) := by
      rw [World.keysOf, find?_setColumn, hrow]
      rfl
    refine ⟨⟨_, hkeys, .inr (.stamp hkey)⟩, ?_⟩
    rw [hkeys, World.keysOf, hrow]
    rfl

theorem keysOf_seen {now : Str} (hquery : env.queryFails w.tick = false) :
    (exec env (.query (.update (.client .lastSeen now) x.uid)) w).2.keysOf x.uid =
      w.keysOf x.uid := by
  rw [exec_updateClient hquery]
  show Option.map _ ((setColumn w.clients x.uid .lastSeen now).find? _) = _
  rw [find?_setColumn, World.keysOf, Option.map_map]
  rfl

/-- From the store on, the key is the one that is sent. -/
theorem Holds.advance (h : Holds crypto offered x key (.perform o k))
    (hworks : Succeeds env crypto x w (.perform o k)) :
    Holds crypto offered x key (k (exec env o w).1) ∧
      (exec env o w).2.keysOf x.uid = w.keysOf x.uid := by
  generalize hp : (.perform o k : Py Handled) = p at h hworks
  cases h with
  | stamp h =>
    cases hp
    exact ⟨.seen h, rfl⟩
  | seen h =>
    cases hp
    refine ⟨?_, keysOf_seen hworks.query⟩
    rw [exec_updateClient hworks.query]
    exact .encrypt h
  | @encrypt rsaKey h =>
    obtain ⟨response, hresponse⟩ := hworks.encrypt rsaKey key rfl
    cases hp
    refine ⟨?_, rfl⟩
    have hnext : orRefuse x.refusal
        (fun seed => orRefusal x.refusal (x.sealed crypto rsaKey key seed))
        (exec env (.randomBytes 20) w).1 = .ret (.response response) := by
      show orRefusal x.refusal (x.sealed crypto rsaKey key (env.randomBytes w.tick 20)) = _
      rw [hresponse]
      rfl
    rw [hnext]
    exact .answered ⟨rsaKey, _, h, env.randomBytes_length _ _, hresponse⟩
  | answered => cases hp

theorem Pends.advance (h : Pends crypto offered x w (.perform o k))
    (hworks : Succeeds env crypto x w (.perform o k)) :
    Pends crypto offered x (exec env o w).2 (k (exec env o w).1) := by
  obtain ⟨keys, hkeys, h | h⟩ := h
  · exact (h.advance hworks.query (Option.isSome_iff_exists.mpr ⟨keys, hkeys⟩)).1
  · obtain ⟨hnext, hsame⟩ := h.advance hworks
    exact ⟨keys, hsame.trans hkeys, .inr hnext⟩

end KeyExchange

/-! ## The row of the client -/

/-- A public key in the row that is not the placeholder was offered. -/
def Offers (offered : Bytes → Prop) (uid : Uid) (w : World) : Prop :=
  ∀ keys, w.keysOf uid = some keys → keys.1 ≠ publicKeyPlaceholder → offered keys.1

/-- The AES key stays in the row. -/
def KeepsAes (uid : Uid) (w w' : World) : Prop :=
  ∀ keys, w.keysOf uid = some keys → ∃ publicKey, w'.keysOf uid = some (publicKey, keys.2)

section Row

variable {env : Env} {crypto : Crypto} {offered : Bytes → Prop} {x : KeyExchange} {w w' : World}
  {p : Py Handled} {uid : Uid} {o : Op}

theorem KeepsAes.of_eq (h : w'.keysOf uid = w.keysOf uid) : KeepsAes uid w w' :=
  fun keys hkeys => ⟨keys.1, h.trans hkeys⟩

theorem Offers.of_eq (hoffers : Offers offered uid w)
    (h : (w'.keysOf uid).map Prod.fst = (w.keysOf uid).map Prod.fst) : Offers offered uid w' := by
  intro keys hkeys
  rw [hkeys] at h
  obtain ⟨keys', hkeys', hsame⟩ := Option.map_eq_some_iff.mp h.symm
  rw [← hsame]
  exact hoffers keys' hkeys'

theorem KeyExchange.Pends.keep (h : x.Pends crypto offered w p) (hkeeps : KeepsAes x.uid w w') :
    x.Pends crypto offered w' p := by
  obtain ⟨keys, hkeys, h⟩ := h
  obtain ⟨publicKey, hkeys'⟩ := hkeeps keys hkeys
  exact ⟨_, hkeys', h⟩

/-- What other requests do to the row: nothing, or they insert it. -/
theorem keysOf_exec_other {j : Header × Bytes}
    (h : Footprint env (fun _ _ => True) (fun _ => True) j.1 j.2 o) (hother : ¬ Exchanges uid j) :
    (exec env o w).2.keysOf uid = w.keysOf uid ∨
      w.keysOf uid = none ∧ ∃ aesKey,
        (exec env o w).2.keysOf uid = some (publicKeyPlaceholder, aesKey) := by
  rcases @clients_exec env o w with hsame | ⟨row, rfl⟩ | ⟨field, data, uid', rfl⟩
  · exact .inl (by rw [World.keysOf, hsame, World.keysOf])
  · cases h with
    | @insertClient uid' name now =>
      simp only [exec]
      split
      · exact .inl rfl
      · simp only [Query.exec]
        cases hinsert : World.clients { w with tick := w.tick + 1 } |>.insert?
            ⟨uid', name, publicKeyPlaceholder, now, aesKeyPlaceholder⟩ with
        | none => exact .inl rfl
        | some clients =>
          simp only [World.keysOf, Table.find?, (Table.insert?_eq_some hinsert).1,
            List.find?_append]
          cases w.clients.rows.find? (·.uuid = uid) with
          | some row => exact .inl rfl
          | none =>
            -- a new row is found only where there was none, and holds the placeholders
            by_cases huid : uid' = uid
            · exact .inr ⟨rfl, aesKeyPlaceholder, by simp [huid]⟩
            · exact .inl (by simp [huid])
  · have hne : uid' ≠ uid := by
      rintro rfl
      cases h with
      | setPublicKey key hcode => exact hother ⟨rfl, .inl hcode⟩
      | setAesKey key hcode => exact hother ⟨rfl, hcode⟩
      | setLastSeen now hcode => exact hother ⟨rfl, hcode⟩
    refine .inl ?_
    simp only [exec]
    split
    · rfl
    · show Option.map _ ((setColumn w.clients uid' field data).find? _) = _
      rw [find?_setColumn_ne hne]
      rfl

/-- **One operation of an exchange** goes on to the next stage. It leaves a key
pending, or the key in the row alone. -/
theorem KeyExchange.KeyStage.advance {k : Except Raised o.Reply → Py Handled}
    (h : x.KeyStage crypto offered w (.perform o k))
    (hworks : x.Succeeds env crypto w (.perform o k)) (hoffers : Offers offered x.uid w)
    (hrefusal : ¬ IsKeyAnswer (.ok (.response x.refusal))) :
    x.KeyStage crypto offered (exec env o w).2 (k (exec env o w).1) ∧
      Offers offered x.uid (exec env o w).2 ∧
      (x.Pends crypto offered (exec env o w).2 (k (exec env o w).1) ∨
        KeepsAes x.uid w (exec env o w).2) := by
  have hrefused : ∀ w, x.KeyStage crypto offered w (.ret (.response x.refusal)) :=
    fun w => .refused (r := .ok (.response x.refusal)) hrefusal
  generalize hp : (.perform o k : Py Handled) = p at h
  cases h with
  -- what is offered is in the row from here on
  | @offer publicKey h =>
    cases hp
    rw [exec_updateClient hworks.query]
    have hkeys : World.keysOf { w.ticked with
        clients := setColumn w.clients x.uid .publicKey publicKey } x.uid =
        (w.keysOf x.uid).map fun keys => (publicKey, keys.2) := by
      rw [World.keysOf, find?_setColumn, World.keysOf, Option.map_map, Option.map_map]
      rfl
    refine ⟨.offerStamp, fun keys hkey _ => ?_, .inr fun keys hkey => ⟨publicKey, ?_⟩⟩
    · rw [hkeys] at hkey
      obtain ⟨_, -, rfl⟩ := Option.map_eq_some_iff.mp hkey
      exact h
    · rw [hkeys, hkey]
      rfl
  | offerStamp =>
    cases hp
    exact ⟨.offerSeen, hoffers, .inr (.of_eq rfl)⟩
  | @offerSeen now =>
    cases hp
    have hsame := @keysOf_seen x env w now hworks.query
    refine ⟨?_, hoffers.of_eq (congrArg _ hsame), .inr (.of_eq hsame)⟩
    rw [exec_updateClient hworks.query]
    exact .recover
  | recover =>
    cases hp
    -- the key read back is one that was offered
    have hreply : exec env (.query (.selectClient .publicKey x.uid)) w =
        (.ok ((w.keysOf x.uid).map Prod.fst), w.ticked) := by
      simp only [exec, hworks.query, Bool.false_eq_true, if_false, Query.exec, World.keysOf,
        Option.map_map]
      rfl
    rw [hreply]
    refine ⟨?_, hoffers, .inr (.of_eq rfl)⟩
    cases hkeys : w.keysOf x.uid with
    | none => exact hrefused _
    | some keys =>
      show x.KeyStage crypto offered w.ticked (x.recovered crypto keys.1)
      rw [recovered]
      split
      · exact hrefused _
      · next hreal =>
        split
        · next rsaKey himport =>
          split
          · exact hrefused _
          · exact .committed (Option.isSome_iff_exists.mpr ⟨keys, hkeys⟩)
              ⟨rsaKey, ⟨keys.1, hoffers keys hkeys hreal, himport⟩, .inl rfl⟩
        · exact hrefused _
  | committed hrow h =>
    subst hp
    obtain ⟨hnext, hsame⟩ := h.advance hworks.query hrow
    exact ⟨hnext.stage, hoffers.of_eq hsame, .inl hnext⟩
  | holds h =>
    subst hp
    obtain ⟨hnext, hsame⟩ := h.advance hworks
    exact ⟨.holds hnext, hoffers.of_eq (congrArg _ hsame), .inr (.of_eq hsame)⟩
  | refused => exact absurd hp Program.perform_ne_ofResult

end Row

/-! ## All threads together -/

section Threads

variable (env : Env) (crypto : Crypto) (offered : Bytes → Prop) (uid : Uid)

/-- Some thread has still to store a key for the client, or to send the one in
its row. -/
def Pending (c : Threads) : Prop :=
  ∃ t j p, c.threads t = some (j, p) ∧ Exchanges uid j ∧
    (KeyExchange.ofRequest j).Pends crypto offered c.shared p

/-- The answer carries the key in the row. -/
def Agrees (w : World) (x : (Header × Bytes) × Except Raised Handled) : Prop :=
  ∃ keys, w.keysOf uid = some keys ∧ ∃ response, x.2 = .ok (.response response) ∧
    (KeyExchange.ofRequest x.1).Carries crypto offered keys.2 response

/-- No operation of an exchange of the client fails. -/
def NothingFails (c : Threads) (a : Action (Header × Bytes)) : Prop :=
  ∀ t j p, a = .advance t → c.threads t = some (j, p) → Exchanges uid j →
    (KeyExchange.ofRequest j).Succeeds env crypto c.shared p

/-- The public keys of the client: the one in its row at the start, and those in
an 826 that was taken up. -/
def Offered (w₀ : World) (c : Threads) (publicKey : Bytes) : Prop :=
  (∃ keys, w₀.keysOf uid = some keys ∧ keys.1 = publicKey) ∨
    ∃ j, c.Took j ∧ j.1.uid = uid ∧ j.1.code = Constants.sPublicKey ∧
      publicKey = KeyExchange.offeredKey j.2

/-- A key is sent only while the thread that stored the one in the row has not
answered, or another one will still store its own. -/
def NotOvertaken (w₀ : World) (c : Threads) (a : Action (Header × Bytes)) : Prop :=
  ∀ t j r, a = .advance t → c.threads t = some (j, .ofResult r) → KeyAnswer uid (j, r) →
    Pending crypto (Offered uid w₀ c) uid c

/-- The last key the client was sent is the one in its row. -/
def KeyAgreed (c : Threads) : Prop :=
  ∀ x, lastKeyAnswer uid c = some x → Agrees crypto offered uid c.shared x

variable {env crypto offered uid} {c c' : Threads} {a : Action (Header × Bytes)} {w : World}
  {j : Header × Bytes}

theorem Exchanges.uid_eq (h : Exchanges uid j) : (KeyExchange.ofRequest j).uid = uid := by
  rw [KeyExchange.ofRequest]
  split <;> exact h.1

theorem not_isKeyAnswer_refusal :
    ¬ IsKeyAnswer (.ok (.response (KeyExchange.ofRequest j).refusal)) := by
  rw [KeyExchange.ofRequest]
  split
  · show ¬ IsKeyAnswer (.ok (.response errorResponse))
    decide
  · rw [IsKeyAnswer, answerCode, responseCode_uidResponse (by decide)]
    decide

/-- What carries a key is a 1602 or a 1605. -/
theorem isKeyAnswer_of_carries {key response : Bytes}
    (h : (KeyExchange.ofRequest j).Carries crypto offered key response) :
    IsKeyAnswer (.ok (.response response)) := by
  obtain ⟨rsaKey, seed, -, -, h⟩ := h
  rw [IsKeyAnswer, answerCode, KeyExchange.responseCode_sealed h, KeyExchange.ofRequest]
  split
  · exact .inl rfl
  · exact .inr rfl

/-- An exchange starts with its first stage. -/
theorem keyStage_start (h : Exchanges uid j)
    (hoffered : j.1.code = Constants.sPublicKey → offered (KeyExchange.offeredKey j.2)) :
    (KeyExchange.ofRequest j).KeyStage crypto offered w (handleJob env crypto j) := by
  by_cases hrefused : j.1.version ≠ Constants.version ∨
      j.1.code = Constants.sPublicKey ∧ j.2.length ≤ Constants.publicKey
  · rw [handleJob, KeyExchange.reqSelect_refused hrefused]
    exact .refused (r := .ok (.response errorResponse)) (by decide)
  · obtain ⟨hversion, hpayload⟩ := not_or.mp hrefused
    rw [not_not] at hversion
    rcases h.2 with hcode | hcode
    · have hlong : Constants.publicKey < j.2.length :=
        Nat.lt_of_not_le fun hshort => hpayload ⟨hcode, hshort⟩
      rw [handleJob, KeyExchange.reqSelect_publicKey hversion hcode hlong]
      exact .offer (hoffered hcode)
    · rw [handleJob, KeyExchange.reqSelect_signIn hversion hcode]
      exact .recover

/-! ## The invariant -/

/-- The threads and the row of the client while no answer is overtaken. -/
structure InStep (env : Env) (crypto : Crypto) (offered : Bytes → Prop) (uid : Uid)
    (c : Threads) : Prop where
  stage : ∀ t j p, c.threads t = some (j, p) → Exchanges uid j →
    (KeyExchange.ofRequest j).KeyStage crypto offered c.shared p
  other : ∀ t j p, c.threads t = some (j, p) → ¬ Exchanges uid j →
    Within env (fun _ _ => True) (fun _ => True) j.1 j.2 p fun _ => True
  offers : Offers offered uid c.shared
  settled : Pending crypto offered uid c ∨ KeyAgreed crypto offered uid c

theorem inStep_initial (hoffers : Offers offered uid w) :
    InStep env crypto offered uid (.initial w) where
  stage _ _ _ h := by cases h
  other _ _ _ h := by cases h
  offers := hoffers
  settled := .inr fun _ h => by cases h

theorem Agrees.keep {w' : World} {x : (Header × Bytes) × Except Raised Handled}
    (h : Agrees crypto offered uid w x) (hkeeps : KeepsAes uid w w') :
    Agrees crypto offered uid w' x := by
  obtain ⟨keys, hkeys, h⟩ := h
  obtain ⟨publicKey, hkeys'⟩ := hkeeps keys hkeys
  exact ⟨_, hkeys', h⟩

/-- A thread moves on: its key is pending afterwards, or it was not before and
the key in the row stays. -/
theorem InStep.move {w' : World} {t : Nat} {p' : Py Handled} (h : InStep env crypto offered uid c)
    (hrow : (c.shared.keysOf uid).isSome → (w'.keysOf uid).isSome)
    (hstage : Exchanges uid j → (KeyExchange.ofRequest j).KeyStage crypto offered w' p')
    (hother : ¬ Exchanges uid j → Within env (fun _ _ => True) (fun _ => True) j.1 j.2 p'
      fun _ => True) (hoffers : Offers offered uid w')
    (hsettled : (Exchanges uid j ∧ (KeyExchange.ofRequest j).Pends crypto offered w' p') ∨
      KeepsAes uid c.shared w' ∧ ∀ j p, c.threads t = some (j, p) → Exchanges uid j →
        ¬ (KeyExchange.ofRequest j).Pends crypto offered c.shared p) :
    InStep env crypto offered uid
      { c with shared := w', threads := Function.update c.threads t (some (j, p')) } where
  stage t' j' q ht' hj' := by
    rcases Pool.threads_update.mp ht' with ⟨-, hmoved⟩ | ⟨-, ht'⟩
    · cases hmoved
      exact hstage hj'
    · refine (h.stage t' j' q ht' hj').mono ?_
      rw [hj'.uid_eq]
      exact hrow
  other t' j' q ht' hj' := by
    rcases Pool.threads_update.mp ht' with ⟨-, hmoved⟩ | ⟨-, ht'⟩
    · cases hmoved
      exact hother hj'
    · exact h.other t' j' q ht' hj'
  offers := hoffers
  settled := by
    rcases hsettled with ⟨hj, hpends⟩ | ⟨hkeeps, hnot⟩
    · exact .inl ⟨t, j, p', Pool.threads_update.mpr (.inl ⟨rfl, rfl⟩), hj, hpends⟩
    · rcases h.settled with ⟨t', j', q, ht', hj', hpends⟩ | hagreed
      · have hne : t' ≠ t := by
          rintro rfl
          exact hnot j' q ht' hj' hpends
        refine .inl ⟨t', j', q, Pool.threads_update.mpr (.inr ⟨hne, ht'⟩), hj', ?_⟩
        exact hpends.keep (hj'.uid_eq.symm ▸ hkeeps)
      · exact .inr fun x hx => (hagreed x hx).keep hkeeps

/-- What a thread with an answer has pending is the key it answers with. -/
theorem carries_of_pends {keys : Bytes × Bytes} {r : Except Raised Handled}
    (hkeys : w.keysOf uid = some keys) (hj : Exchanges uid j)
    (h : (KeyExchange.ofRequest j).Pends crypto offered w (.ofResult r)) :
    ∃ response, r = .ok (.response response) ∧
      (KeyExchange.ofRequest j).Carries crypto offered keys.2 response := by
  obtain ⟨keys', hkeys', hpends⟩ := h
  rw [hj.uid_eq, hkeys] at hkeys'
  obtain rfl := Option.some.inj hkeys'
  generalize hp : (Program.ofResult r : Py Handled) = p at hpends
  rcases hpends with ⟨rsaKey, -, hdraw | ⟨key, hstore⟩⟩ | hholds
  · exact absurd (hdraw.symm.trans hp.symm) Program.perform_ne_ofResult
  · exact absurd (hstore.symm.trans hp.symm) Program.perform_ne_ofResult
  · cases hholds with
    | stamp => exact absurd hp.symm Program.perform_ne_ofResult
    | seen => exact absurd hp.symm Program.perform_ne_ofResult
    | encrypt => exact absurd hp.symm Program.perform_ne_ofResult
    | @answered response h =>
      have hr : r = .ok (.response response) := Program.ofResult_inj (hp.trans rfl)
      exact ⟨response, hr, h⟩

/-- A thread answers. If it sends a key, some thread still has the one in the
row to send, and if that is the thread itself, it sends this key. -/
theorem InStep.answer {t : Nat} {r : Except Raised Handled} (h : InStep env crypto offered uid c)
    (ht : c.threads t = some (j, .ofResult r))
    (hpending : KeyAnswer uid (j, r) → Pending crypto offered uid c) :
    InStep env crypto offered uid { c with
      threads := Function.update c.threads t none
      answered := c.answered ++ [(j, r)] } := by
  constructor
  case stage =>
    intro t' j' q ht' hj'
    rcases Pool.threads_update.mp ht' with ⟨-, hmoved⟩ | ⟨-, ht'⟩
    · cases hmoved
    · exact h.stage t' j' q ht' hj'
  case other =>
    intro t' j' q ht' hj'
    rcases Pool.threads_update.mp ht' with ⟨-, hmoved⟩ | ⟨-, ht'⟩
    · cases hmoved
    · exact h.other t' j' q ht' hj'
  case offers => exact h.offers
  case settled =>
    have hothers : ∀ {t' j' q}, c.threads t' = some (j', q) → t' ≠ t → Exchanges uid j' →
        (KeyExchange.ofRequest j').Pends crypto offered c.shared q →
        Pending crypto offered uid { c with
          threads := Function.update c.threads t none
          answered := c.answered ++ [(j, r)] } :=
      fun ht' hne hj' hpends =>
        ⟨_, _, _, Pool.threads_update.mpr (.inr ⟨hne, ht'⟩), hj', hpends⟩
    by_cases hkey : KeyAnswer uid (j, r)
    · obtain ⟨t', j', q, ht', hj', hpends⟩ := hpending hkey
      by_cases hne : t' = t
      · subst hne
        cases ht'.symm.trans ht
        obtain ⟨keys, hkeys, -⟩ := id hpends
        rw [hj'.uid_eq] at hkeys
        refine .inr fun x hx => ?_
        have hlast : x = (j, r) := by
          simpa [lastKeyAnswer, hkey] using hx.symm
        subst hlast
        exact ⟨keys, hkeys, carries_of_pends hkeys hj' hpends⟩
      · exact .inl (hothers ht' hne hj' hpends)
    · rcases h.settled with ⟨t', j', q, ht', hj', hpends⟩ | hagreed
      · refine .inl (hothers ht' ?_ hj' hpends)
        rintro rfl
        cases ht'.symm.trans ht
        obtain ⟨keys, hkeys, -⟩ := id hpends
        rw [hj'.uid_eq] at hkeys
        obtain ⟨response, rfl, hsealed⟩ := carries_of_pends hkeys hj' hpends
        exact hkey ⟨hj', isKeyAnswer_of_carries hsealed⟩
      · refine .inr fun x hx => hagreed x ?_
        simpa [lastKeyAnswer, hkey] using hx

/-- **One step of the threads** keeps the invariant. -/
theorem InStep.step (h : InStep env crypto offered uid c)
    (hfails : NothingFails env crypto uid c a)
    (hovertaken : ∀ t j r, a = .advance t → c.threads t = some (j, .ofResult r) →
      KeyAnswer uid (j, r) → Pending crypto offered uid c)
    (hstart : ∀ t j, a = .start t j → j.1.uid = uid → j.1.code = Constants.sPublicKey →
      offered (KeyExchange.offeredKey j.2))
    (hstep : Pool.step (exec env) (handleJob env crypto) c a = some c') :
    InStep env crypto offered uid c' := by
  rcases Pool.step_cases (exec env) (handleJob env crypto) hstep with
    ⟨t, j, rfl, hidle, rfl⟩ | ⟨t, j, r, rfl, ht, rfl⟩ | ⟨t, j, o, k, rfl, ht, rfl⟩
  · refine h.move id (fun hj => keyStage_start hj (hstart t j rfl hj.1))
      (fun _ => reqSelect_within crypto) h.offers (.inr ⟨.of_eq rfl, fun j p ht => ?_⟩)
    rw [hidle] at ht
    cases ht
  · exact h.answer ht (hovertaken t j r rfl ht)
  · have hrow : (c.shared.keysOf uid).isSome → ((exec env o c.shared).2.keysOf uid).isSome :=
      isSome_keysOf_exec o
    by_cases hj : Exchanges uid j
    · have hworks := hfails t j _ rfl ht hj
      obtain ⟨hstage, hoffers, hsettled⟩ := (h.stage t j _ ht hj).advance hworks
        (hj.uid_eq.symm ▸ h.offers) not_isKeyAnswer_refusal
      rw [hj.uid_eq] at hoffers hsettled
      refine h.move hrow (fun _ => hstage) (fun hother => absurd hj hother) hoffers ?_
      -- a pending key stays pending; without one, one is pending now or the row keeps its key
      by_cases hpends : (KeyExchange.ofRequest j).Pends crypto offered c.shared (.perform o k)
      · exact .inl ⟨hj, hpends.advance hworks⟩
      · refine hsettled.imp (⟨hj, ·⟩) fun hkeeps => ⟨hkeeps, fun j' p ht' _ => ?_⟩
        cases ht'.symm.trans ht
        exact hpends
    · have huses := h.other t j _ ht hj
      have hkeys := @keysOf_exec_other env c.shared uid o j huses.1 hj
      refine h.move hrow (fun hexchange => absurd hexchange hj)
        (fun _ => huses.2 _ (replies_trivial o _)) ?_ (.inr ⟨?_, fun j' p ht' hj' => ?_⟩)
      · rcases hkeys with hsame | ⟨-, aesKey, hnew⟩
        · exact h.offers.of_eq (congrArg _ hsame)
        · intro keys hkeys' hreal
          cases hnew.symm.trans hkeys'
          exact absurd rfl hreal
      · rcases hkeys with hsame | ⟨hnone, -⟩
        · exact .of_eq hsame
        · intro keys hkeys'
          cases hnone.symm.trans hkeys'
      · cases ht'.symm.trans ht
        exact absurd hj' hj

/-- **Key agreement**: in every interleaving in which nothing fails and no
answer is overtaken, the last key a client was sent is the one in its row
whenever no exchange of the client is in progress. -/
theorem keys_agree {w₀ : World}
    (hrun : Pool.Run (exec env) (handleJob env crypto)
      (fun c a => NothingFails env crypto uid c a ∧ NotOvertaken crypto uid w₀ c a)
      (.initial w₀) c)
    (hidle : ∀ t j p, c.threads t = some (j, p) → ¬ Exchanges uid j) :
    KeyAgreed crypto (Offered uid w₀ c) uid c := by
  have hinitial : InStep env crypto (Offered uid w₀ c) uid (.initial w₀) :=
    inStep_initial fun keys hkeys _ => .inl ⟨keys, hkeys, rfl⟩
  have h : InStep env crypto (Offered uid w₀ c) uid c := by
    refine (hrun.took _ _ fun j hj => hj).invariant _ _ hinitial fun c₁ c₂ a hc₁ hok hstep => ?_
    obtain ⟨⟨hfails, hovertaken⟩, htook, hstart⟩ := hok
    refine hc₁.step hfails (fun t j r ha ht hkey => ?_) (fun t j ha huid hcode => ?_) hstep
    · obtain ⟨t', j', p, ht', hj', hpends⟩ := hovertaken t j r ha ht hkey
      refine ⟨t', j', p, ht', hj', hpends.mono fun publicKey hoffered => ?_⟩
      exact hoffered.imp_right fun ⟨j, hj, h⟩ => ⟨j, htook j hj, h⟩
    · exact .inr ⟨j, hstart t j ha, huid, hcode, rfl⟩
  refine h.settled.resolve_left ?_
  rintro ⟨t, j, p, ht, hj, -⟩
  exact hidle t j p ht hj

end Threads

/-! ## Two sign-ins -/

/-- As `Env.calm`, but what is drawn depends on when. -/
def Env.changing (draw : Nat → Uid) : Env where
  __ := Env.calm draw
  randomBytes t n := List.replicate n (UInt8.ofNat t)
  randomBytes_length _ _ := List.length_replicate

/-- The client `u` has registered and exchanged keys. -/
def enrolled : World :=
  handleAll (.changing Uid.ofNat) toyCrypto (.init .bare)
    [request (Uid.ofNat 0) 825 [0x75, 0x00], keyRequest (Uid.ofNat 1)]

/-- Two threads take up a sign-in of this client, and then they take turns as
`moves` says. -/
def signIns (moves : List Nat) : List (Action (Header × Bytes)) :=
  [.start 0 (request (Uid.ofNat 1) 827 []), .start 1 (request (Uid.ofNat 1) 827 [])] ++
    moves.map .advance

/-- With these algorithms a response ends with the key. -/
theorem drop_of_carries {offered : Bytes → Prop} {x : KeyExchange} {key response : Bytes}
    (h : x.Carries toyCrypto offered key response) : response.drop 43 = key := by
  obtain ⟨rsaKey, seed, -, hlen, h⟩ := h
  change initResponse _ _ _ (x.uid.bytes ++ (seed ++ key)) = _ at h
  simp only [initResponse, packHeader] at h
  split at h
  · cases h
  · next header hheader =>
    split at hheader
    · cases hheader
      cases h
      rw [← List.append_assoc x.uid.bytes, ← List.append_assoc]
      exact List.drop_left' (by simp [x.uid.length_eq, hlen])
    · cases hheader

/-- Only the first two threads start, and no encryption turns a client down. -/
def bothEncrypt (c : Threads) : Action (Header × Bytes) → Bool
  | .start t _ => decide (t < 2)
  | .advance t =>
    match c.threads t with
    | some (_, .perform (.randomBytes n) k) =>
      match k (.ok ((Env.changing Uid.ofNat).randomBytes c.shared.tick n)) with
      | .ret r => decide (IsKeyAnswer (.ok r))
      | _ => true
    | _ => true

theorem nothingFails_of_check {uid : Uid} {c : Threads} {a : Action (Header × Bytes)}
    (h : bothEncrypt c a = true) : NothingFails (.changing Uid.ofNat) toyCrypto uid c a := by
  intro t j p ha ht hj
  refine ⟨rfl, fun rsaKey key hp => ?_⟩
  subst ha hp
  cases hsealed : (KeyExchange.ofRequest j).sealed toyCrypto rsaKey key
      ((Env.changing Uid.ofNat).randomBytes c.shared.tick 20) with
  | ok response => exact ⟨response, rfl⟩
  | error e =>
    have hrefused : IsKeyAnswer (.ok (.response (KeyExchange.ofRequest j).refusal)) := by
      simpa only [bothEncrypt, ht, KeyExchange.encrypt, orRefuse, hsealed,
        orRefusal, decide_eq_true_eq] using h
    exact absurd hrefused not_isKeyAnswer_refusal

/-- The runs of the two threads. -/
abbrev SignInRun : Threads → Prop :=
  Pool.Run (exec (.changing Uid.ofNat)) (handleJob (.changing Uid.ofNat) toyCrypto)
    (fun c a => bothEncrypt c a = true) (.initial enrolled)

/-- Both threads are done. -/
def bothDone (c : Threads) : Bool := (c.threads 0).isNone && (c.threads 1).isNone

/-- No third thread is ever busy. -/
theorem idle_of_bothDone {c : Threads} (hrun : SignInRun c) (hdone : bothDone c = true) (t : Nat)
    (j : Header × Bytes) (p : Py Handled) (ht : c.threads t = some (j, p)) :
    ¬ Exchanges (Uid.ofNat 1) j := by
  have hbusy : ∀ t j p, c.threads t = some (j, p) → t < 2 := by
    refine hrun.invariant _ _ (I := fun c => ∀ t j p, c.threads t = some (j, p) → t < 2) nofun
      fun c c' a h hcheck hstep => ?_
    refine Pool.jobs_step _ _ (Q := fun t _ => t < 2) h (fun t j hstart => ?_) hstep
    subst hstart
    exact of_decide_eq_true hcheck
  simp only [bothDone, Bool.and_eq_true, Option.isNone_iff_eq_none] at hdone
  have hlt := hbusy t j p ht
  interval_cases t
  · cases hdone.1.symm.trans ht
  · cases hdone.2.symm.trans ht

/-- The key that was sent last, with these algorithms. -/
def sentKey (c : Threads) : Option Bytes :=
  match lastKeyAnswer (Uid.ofNat 1) c with
  | some (_, .ok (.response response)) => some (response.drop 43)
  | _ => none

theorem sentKey_of_agrees {offered : Bytes → Prop} {c : Threads}
    {x : (Header × Bytes) × Except Raised Handled} (hx : lastKeyAnswer (Uid.ofNat 1) c = some x)
    (h : Agrees toyCrypto offered (Uid.ofNat 1) c.shared x) :
    sentKey c = (c.shared.keysOf (Uid.ofNat 1)).map Prod.snd := by
  obtain ⟨keys, hkeys, response, hresponse, hcarries⟩ := h
  obtain ⟨j, r⟩ := x
  obtain rfl : r = .ok (.response response) := hresponse
  rw [sentKey, hx, hkeys]
  exact congrArg some (drop_of_carries hcarries)

/-- **An overtaken answer**: the first thread stores its key, the second one
stores another and answers, and then the first one answers with a key that is
gone from the row. -/
theorem overtaken_key_lost :
    ∃ c : Threads, Pool.Run (exec (.changing Uid.ofNat))
        (handleJob (.changing Uid.ofNat) toyCrypto)
        (NothingFails (.changing Uid.ofNat) toyCrypto (Uid.ofNat 1)) (.initial enrolled) c ∧
      (∀ t j p, c.threads t = some (j, p) → ¬ Exchanges (Uid.ofNat 1) j) ∧
      ∀ offered, ¬ KeyAgreed toyCrypto offered (Uid.ofNat 1) c := by
  obtain ⟨c, hc, hfacts⟩ : ∃ c, Pool.follow (exec (.changing Uid.ofNat))
      (handleJob (.changing Uid.ofNat) toyCrypto) bothEncrypt (.initial enrolled)
      (signIns [0, 0, 0, 1, 1, 1, 1, 1, 1, 1, 0, 0, 0, 0]) = some c ∧
      (bothDone c, sentKey c, (c.shared.keysOf (Uid.ofNat 1)).map Prod.snd) =
        (true, some (List.replicate 32 14), some (List.replicate 32 17)) :=
    Option.map_eq_some_iff.mp (by decide +kernel)
  obtain ⟨hdone, hfacts⟩ := Prod.mk.inj hfacts
  obtain ⟨hsent, hrow⟩ := Prod.mk.inj hfacts
  have hrun : SignInRun c := Pool.run_of_follow _ _ (I := fun _ => True)
    (fun _ _ _ _ _ _ => trivial) (fun _ _ _ hcheck => hcheck) .refl trivial hc
  refine ⟨c, hrun.mono _ _ fun _ _ => nothingFails_of_check, idle_of_bothDone hrun hdone, ?_⟩
  intro offered hagreed
  cases hlast : lastKeyAnswer (Uid.ofNat 1) c with
  | none =>
    rw [sentKey, hlast] at hsent
    cases hsent
  | some x =>
    have hsame := sentKey_of_agrees hlast (hagreed x hlast)
    rw [hsent, hrow] at hsame
    exact absurd hsame (by decide)

/-- The thread sends the key that is in the row. -/
def sendsKey (c : Threads) (t : Nat) : Bool :=
  match c.threads t, c.shared.keysOf (Uid.ofNat 1) with
  | some (j, .ret (.response r)), some keys =>
    decide (Exchanges (Uid.ofNat 1) j ∧ (slice r 23 43).length = 20 ∧
      (KeyExchange.ofRequest j).sealed toyCrypto () keys.2 (slice r 23 43) = .ok r)
  | _, _ => false

/-- When one of the two threads sends a key, it is the one in the row, or the
other thread is about to send that. -/
def inTurn (c : Threads) (a : Action (Header × Bytes)) : Bool :=
  bothEncrypt c a && match a with
    | .start _ _ => true
    | .advance t =>
      match c.threads t with
      | some (_, .ret _) => sendsKey c 0 || sendsKey c 1
      | _ => true

theorem notOvertaken_of_check {c : Threads} {a : Action (Header × Bytes)} (h : inTurn c a = true) :
    NotOvertaken toyCrypto (Uid.ofNat 1) enrolled c a := by
  intro t j r ha ht hkey
  subst ha
  have hsends : ∃ t', sendsKey c t' = true := by
    rcases r with e | handled
    · rcases hkey.2 with hcode | hcode <;> cases hcode
    · rw [Program.ofResult] at ht
      simp only [inTurn, ht, Bool.and_eq_true, Bool.or_eq_true] at h
      exact h.2.elim (⟨0, ·⟩) (⟨1, ·⟩)
  obtain ⟨t', h⟩ := hsends
  simp only [sendsKey] at h
  split at h
  · next j' response keys ht' hkeys =>
    obtain ⟨hj', hseed, hsealed⟩ := of_decide_eq_true h
    obtain ⟨keys₀, hkeys₀⟩ : ∃ keys, enrolled.keysOf (Uid.ofNat 1) = some keys :=
      Option.isSome_iff_exists.mp (by decide +kernel)
    refine ⟨t', j', _, ht', hj', keys, hj'.uid_eq.symm ▸ hkeys, .inr (.answered ?_)⟩
    exact ⟨(), slice response 23 43, ⟨keys₀.1, .inl ⟨keys₀, hkeys₀, rfl⟩, rfl⟩, hseed, hsealed⟩
  · cases h

/-- Two sign-ins that overlap and answer in turn: the client has the key that is
in its row. -/
theorem signIns_agree :
    ∃ c : Threads, (∃ x, lastKeyAnswer (Uid.ofNat 1) c = some x) ∧
      KeyAgreed toyCrypto (Offered (Uid.ofNat 1) enrolled c) (Uid.ofNat 1) c := by
  obtain ⟨c, hc, hfacts⟩ : ∃ c, Pool.follow (exec (.changing Uid.ofNat))
      (handleJob (.changing Uid.ofNat) toyCrypto) inTurn (.initial enrolled)
      (signIns [0, 0, 0, 1, 1, 1, 1, 1, 1, 0, 0, 0, 0, 1]) = some c ∧
      (bothDone c, (lastKeyAnswer (Uid.ofNat 1) c).isSome) = (true, true) :=
    Option.map_eq_some_iff.mp (by decide +kernel)
  obtain ⟨hdone, hlast⟩ := Prod.mk.inj hfacts
  have hrun : Pool.Run (exec (.changing Uid.ofNat)) (handleJob (.changing Uid.ofNat) toyCrypto)
      (fun c a => inTurn c a = true) (.initial enrolled) c := Pool.run_of_follow _ _
    (I := fun _ => True) (fun _ _ _ _ _ _ => trivial) (fun _ _ _ hcheck => hcheck) .refl trivial hc
  have hencrypt : ∀ c a, inTurn c a = true → bothEncrypt c a = true :=
    fun c a hcheck => (Bool.and_eq_true_iff.mp hcheck).1
  refine ⟨c, Option.isSome_iff_exists.mp hlast, keys_agree (hrun.mono _ _ fun c a hcheck => ?_)
    (idle_of_bothDone (hrun.mono _ _ hencrypt) hdone)⟩
  exact ⟨nothingFails_of_check (hencrypt c a hcheck), notOvertaken_of_check hcheck⟩

end FileTransfer.Server
