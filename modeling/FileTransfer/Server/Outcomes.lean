import FileTransfer.Server.FailedExchange
import FileTransfer.Server.FailedUpload

/-!
# What an answer says about the world

A response other than the refusal means that every operation on the way has worked,
whichever operations of other requests fail. For the codes of a session, this is what
the world then looks like.
-/

namespace FileTransfer.Server

open FileTransfer.Effect

section Stages

variable {env : Env} {w w' : World} {response : Bytes}

/-- An operation that was not refused has worked, and the rest has answered. -/
theorem run_orRefuse {o : Op} {refusal : Bytes} {k : o.Reply → Py Handled}
    (h : Program.run (exec env) (@Program.perform sig Raised Handled o (orRefuse refusal k)) w =
      (.ok (.response response), w')) (hnot : response ≠ refusal) :
    ∃ a w₁, exec env o w = (.ok a, w₁) ∧
      Program.run (exec env) (k a) w₁ = (.ok (.response response), w') := by
  rw [Program.run_perform] at h
  rcases hexec : exec env o w with ⟨(e | _) | a, w₁⟩
  · rw [hexec] at h
    cases h
    exact absurd rfl hnot
  · rw [hexec] at h
    cases h
  · rw [hexec] at h
    exact ⟨a, w₁, rfl, h⟩

theorem run_orRefusal {refusal : Bytes} {r : Except Exn Bytes}
    (h : Program.run (exec env) (orRefusal refusal r) w = (.ok (.response response), w'))
    (hnot : response ≠ refusal) : r = .ok response ∧ w' = w := by
  cases r with
  | ok b =>
    cases h
    exact ⟨rfl, rfl⟩
  | error e =>
    cases h
    exact absurd rfl hnot

/-- A statement that has worked. -/
theorem exec_query_ok {q : Query} {a : q.Reply} (h : exec env (.query q) w = (.ok a, w')) :
    (q.exec w.ticked).1 = .ok a ∧ w' = (q.exec w.ticked).2 := by
  simp only [exec] at h
  split at h
  · cases h
  · obtain ⟨hreply, rfl⟩ := Prod.mk.inj h
    refine ⟨?_, rfl⟩
    show (q.exec { w with tick := w.tick + 1 }).1 = .ok a
    cases hq : (q.exec { w with tick := w.tick + 1 }).1 with
    | ok b =>
      rw [hq] at hreply
      cases hreply
      rfl
    | error e =>
      rw [hq] at hreply
      cases hreply

theorem exec_update_ok {field : ClientField} {data : field.Ty} {uid : Uid} {n : Nat}
    (h : exec env (.query (.update (.client field data) uid)) w = (.ok n, w')) :
    w' = { w.ticked with clients := setColumn w.clients uid field data } :=
  (exec_query_ok h).2

theorem exec_randomBytes_ok {n : Nat} {bytes : Bytes}
    (h : exec env (.randomBytes n) w = (.ok bytes, w')) : bytes.length = n ∧ w' = w.ticked := by
  cases h
  exact ⟨env.randomBytes_length _ _, rfl⟩

end Stages

/-! ## Key exchanges -/

namespace KeyExchange

/-- The client's row before and after an exchange that was answered: it holds a public
key that can be used, and the AES key that the answer carries. -/
structure Agreed (crypto : Crypto) (x : KeyExchange) (publicKey response : Bytes)
    (row row' : ClientRow) : Prop where
  userName : row'.userName = row.userName
  publicKey_eq : row'.publicKey = publicKey
  length_eq : row'.aesKey.length = 32
  carried : ∃ rsaKey seed, usableKey crypto publicKey = some rsaKey ∧ seed.length = 20 ∧
    x.sealed crypto rsaKey row'.aesKey seed = .ok response

variable {env : Env} {crypto : Crypto} {x : KeyExchange} {w w' : World} {response : Bytes}

theorem stamp_answered {next : Py Handled}
    (h : Program.run (exec env) (x.stamp next) w = (.ok (.response response), w'))
    (hnot : response ≠ x.refusal) :
    ∃ now tick, Program.run (exec env) next { w with
      clients := setColumn w.clients x.uid .lastSeen now, tick := tick } =
        (.ok (.response response), w') := by
  obtain ⟨now, w₁, hnow, hseen⟩ := run_orRefuse h hnot
  obtain ⟨n, w₂, hupdate, hnext⟩ := run_orRefuse hseen hnot
  rw [exec_update_ok hupdate] at hnext
  obtain ⟨-, rfl⟩ := Prod.mk.inj hnow
  exact ⟨now, _, hnext⟩

/-- From the draw on. -/
theorem draw_answered {rsaKey : crypto.RsaKey}
    (h : Program.run (exec env) (x.draw crypto rsaKey) w = (.ok (.response response), w'))
    (hnot : response ≠ x.refusal) :
    ∃ key seed now tick, key.length = 32 ∧ seed.length = 20 ∧
      x.sealed crypto rsaKey key seed = .ok response ∧ w' = { w with
        clients := setColumn (setColumn w.clients x.uid .aesKey key) x.uid .lastSeen now
        tick := tick } := by
  obtain ⟨key, w₁, hkey, hstore⟩ := run_orRefuse h hnot
  obtain ⟨hkeyLength, rfl⟩ := exec_randomBytes_ok hkey
  obtain ⟨n, w₂, hupdate, hstamp⟩ := run_orRefuse hstore hnot
  obtain rfl := exec_update_ok hupdate
  obtain ⟨now, tick, hencrypt⟩ := stamp_answered hstamp hnot
  obtain ⟨seed, w₃, hseed, hlast⟩ := run_orRefuse hencrypt hnot
  obtain ⟨hseedLength, rfl⟩ := exec_randomBytes_ok hseed
  obtain ⟨hsealed, rfl⟩ := run_orRefusal hlast hnot
  exact ⟨key, seed, now, _, hkeyLength, hseedLength, hsealed, rfl⟩

/-- From the look at the public key on. -/
theorem recover_answered
    (h : Program.run (exec env) (x.recover crypto) w = (.ok (.response response), w'))
    (hnot : response ≠ x.refusal) :
    ∃ row row', w.clients.find? (·.uuid = x.uid) = some row ∧
      w'.clients.find? (·.uuid = x.uid) = some row' ∧
      Agreed crypto x row.publicKey response row row' ∧ w'.files = w.files ∧
      w'.disk = w.disk := by
  obtain ⟨found, w₁, hselect, hrecovered⟩ := run_orRefuse h hnot
  obtain ⟨hreply, rfl⟩ := exec_query_ok hselect
  have hfound : (w.clients.find? (·.uuid = x.uid)).map (·.publicKey) = found := by
    cases hreply
    rfl
  cases hrow : w.clients.find? (·.uuid = x.uid) with
  | none =>
    rw [hrow] at hfound
    subst hfound
    cases hrecovered
    exact absurd rfl hnot
  | some row =>
    rw [hrow] at hfound
    subst hfound
    have hrun : Program.run (exec env) (x.recovered crypto row.publicKey) w.ticked =
        (.ok (.response response), w') := hrecovered
    cases husable : usableKey crypto row.publicKey with
    | none =>
      rw [recovered_none husable] at hrun
      cases hrun
      exact absurd rfl hnot
    | some rsaKey =>
      rw [recovered_some husable] at hrun
      obtain ⟨key, seed, now, tick, hkey, hseed, hsealed, rfl⟩ := draw_answered hrun hnot
      refine ⟨row, (row.set .aesKey key).set .lastSeen now, rfl, ?_,
        ⟨rfl, rfl, hkey, rsaKey, seed, husable, hseed, hsealed⟩, rfl, rfl⟩
      rw [find?_setColumn, find?_setColumn, World.ticked_clients, hrow]
      rfl

theorem offer_answered {publicKey : Bytes}
    (h : Program.run (exec env) (x.offer crypto publicKey) w = (.ok (.response response), w'))
    (hnot : response ≠ x.refusal) :
    ∃ row row', w.clients.find? (·.uuid = x.uid) = some row ∧
      w'.clients.find? (·.uuid = x.uid) = some row' ∧
      Agreed crypto x publicKey response row row' ∧ w'.files = w.files ∧ w'.disk = w.disk := by
  obtain ⟨n, w₁, hupdate, hstamp⟩ := run_orRefuse h hnot
  obtain ⟨now, tick, hrecover⟩ := stamp_answered hstamp hnot
  obtain rfl := exec_update_ok hupdate
  obtain ⟨offered, row', hoffered, hrow', hagreed, hfiles, hdisk⟩ :=
    recover_answered hrecover hnot
  rw [find?_setColumn, find?_setColumn, Option.map_map] at hoffered
  obtain ⟨row, hrow, rfl⟩ := Option.map_eq_some_iff.mp hoffered
  exact ⟨row, row', hrow, hrow', ⟨hagreed.userName, hagreed.publicKey_eq, hagreed.length_eq,
    hagreed.carried⟩, hfiles, hdisk⟩

end KeyExchange

/-! ## Uploads -/

namespace Saving

variable {env : Env} {crypto : Crypto} {uid : Uid} {payload : Bytes} {name : Str} {w w' : World}
  {response : Bytes}

/-- A checksum that is sent fits in its field. -/
theorem of_checked_ok {crc : Nat} (h : checked uid payload name crc = .ok response) :
    crc < 2 ^ 32 ∧ initResponse Constants.version Constants.validFileCrc
      (uid.bytes ++ payload.take Constants.uint32T ++ utf8Encode name ++ toLE 4 crc).length
      (uid.bytes ++ payload.take Constants.uint32T ++ utf8Encode name ++ toLE 4 crc) =
        .ok response := by
  by_cases hfits : crc < 2 ^ 32
  · rw [checked, packCrc, if_pos hfits] at h
    exact ⟨hfits, h⟩
  · rw [checked, packCrc, if_neg hfits] at h
    cases h

/-- A stage that asks for the user name. -/
theorem owner_answered {next : Str → Py Handled}
    (h : Program.run (exec env) (owner uid next) w = (.ok (.response response), w'))
    (hnot : response ≠ errorResponse) :
    ∃ row, w.clients.find? (·.uuid = uid) = some row ∧
      Program.run (exec env) (next row.userName) w.ticked = (.ok (.response response), w') := by
  obtain ⟨found, w₁, hselect, hnext⟩ := run_orRefuse h hnot
  obtain ⟨hreply, rfl⟩ := exec_query_ok hselect
  have hfound : (w.clients.find? (·.uuid = uid)).map (·.userName) = found := by
    cases hreply
    rfl
  cases hrow : w.clients.find? (·.uuid = uid) with
  | none =>
    rw [hrow] at hfound
    subst hfound
    cases hnext
    exact absurd rfl hnot
  | some row =>
    rw [hrow] at hfound
    subst hfound
    exact ⟨row, rfl, hnext⟩

/-- The last stage reads what is on the disk. -/
theorem readBack_answered {user : Str}
    (h : Program.run (exec env) (readBack env uid payload name user) w =
      (.ok (.response response), w')) (hnot : response ≠ errorResponse) :
    ∃ content crc, w.disk.read ((userDir env user).join name) = .ok content ∧
      memcrc content = some crc ∧ checked uid payload name crc = .ok response ∧
      w' = w.ticked := by
  rw [readBack, Program.run_perform] at h
  rcases hread : exec env (.readFile ((userDir env user).join name)) w with ⟨e | content, w₁⟩
  · rw [hread] at h
    cases h
  · rw [hread] at h
    have hcontent : w.disk.read ((userDir env user).join name) = .ok content ∧
        w₁ = w.ticked := by
      simp only [exec] at hread
      split at hread
      · cases hread
      · cases hdisk : w.disk.read ((userDir env user).join name) with
        | error e =>
          rw [hdisk] at hread
          cases hread
        | ok buffer =>
          rw [hdisk] at hread
          cases hread
          exact ⟨rfl, rfl⟩
    obtain ⟨hcontent, rfl⟩ := hcontent
    have hanswer : Program.run (exec env) (answer uid payload name content) w.ticked =
        (.ok (.response response), w') := h
    rw [answer] at hanswer
    cases hcrc : memcrc content with
    | none =>
      rw [hcrc] at hanswer
      cases hanswer
    | some crc =>
      rw [hcrc] at hanswer
      obtain ⟨hchecked, rfl⟩ := run_orRefusal hanswer hnot
      exact ⟨content, crc, hcontent, hcrc, hchecked, rfl⟩

/-- **An upload that was answered with a 1603**: its content is in the file, and a row
was offered to the table. -/
theorem decrypt_answered
    (h : Program.run (exec env) (decrypt env crypto uid payload name) w =
      (.ok (.response response), w')) (hnot : response ≠ errorResponse) :
    ∃ row content crc d, w.clients.find? (·.uuid = uid) = some row ∧
      decrypted crypto row payload = .ok content ∧ w'.clients = w.clients ∧
      w'.files = w.files.insertOrIgnore ⟨uid, name, (userDir env row.userName).str, 0⟩ ∧
      w.disk.mkdirs (userDir env row.userName) = (.ok (), d) ∧
      d.write ((userDir env row.userName).join name) content = .ok w'.disk ∧
      memcrc content = some crc ∧ checked uid payload name crc = .ok response := by
  obtain ⟨found, w₁, hselect, hdecrypt⟩ := run_orRefuse h hnot
  obtain ⟨hreply, rfl⟩ := exec_query_ok hselect
  have hfound : (w.clients.find? (·.uuid = uid)).map (·.aesKey) = found := by
    cases hreply
    rfl
  cases hrow : w.clients.find? (·.uuid = uid) with
  | none =>
    rw [hrow] at hfound
    subst hfound
    cases hdecrypt
    exact absurd rfl hnot
  | some row =>
    rw [hrow] at hfound
    subst hfound
    cases hcontent : decryptedWith crypto payload row.aesKey with
    | error e =>
      simp only [Option.map_some, hcontent] at hdecrypt
      cases hdecrypt
      exact absurd rfl hnot
    | ok content =>
      simp only [Option.map_some, hcontent] at hdecrypt
      -- the same row is found each time
      obtain ⟨row₁, hrow₁, hdir⟩ := owner_answered hdecrypt hnot
      obtain rfl : row₁ = row := Option.some.inj (hrow₁.symm.trans hrow)
      obtain ⟨⟨⟩, w₂, hmade, hwrite⟩ := run_orRefuse hdir hnot
      obtain ⟨-, d, hmkdir, rfl⟩ := run_mkdir_ok.mp ((run_mkdir env _ _).trans hmade)
      obtain ⟨⟨⟩, w₃, hwritten, hadd⟩ := run_orRefuse hwrite hnot
      obtain ⟨-, d', hd', rfl⟩ := run_writeFile_ok.mp ((run_writeFile env _ _ _).trans hwritten)
      obtain ⟨row₂, hrow₂, haddRow⟩ := owner_answered hadd hnot
      obtain rfl : row₂ = row₁ := Option.some.inj (hrow₂.symm.trans hrow)
      obtain ⟨n, w₄, hinsert, hread⟩ := run_orRefuse haddRow hnot
      obtain ⟨-, rfl⟩ := exec_query_ok hinsert
      obtain ⟨row₃, hrow₃, hback⟩ := owner_answered hread hnot
      obtain rfl : row₃ = row₂ := Option.some.inj (hrow₃.symm.trans hrow)
      obtain ⟨content', crc, hcontent', hcrc, hchecked, rfl⟩ := readBack_answered hback hnot
      have hsame : d'.read ((userDir env row₃.userName).join name) = .ok content :=
        Disk.read_of_write hd'
      obtain rfl : content' = content := by
        have heq := hcontent'.symm.trans hsame
        cases heq
        rfl
      exact ⟨row₃, content', crc, d, rfl, hcontent, rfl, rfl, hmkdir, hd', hcrc, hchecked⟩

end Saving

/-! ## Single requests -/

section Requests

variable {env : Env} {crypto : Crypto} {header : Header} {payload : Bytes} {w w' : World}
  {response : Bytes}

/-- **An 828** is refused, or its content is on the disk and its checksum in the answer. -/
theorem upload_outcome (hcode : header.code = Constants.sendFile)
    (h : serve env crypto header payload w = (.ok (.response response), w')) :
    response = errorResponse ∨ ∃ name row content crc d, uploadName payload = some name ∧
      w.clients.find? (·.uuid = header.uid) = some row ∧
      decrypted crypto row payload = .ok content ∧ w'.clients = w.clients ∧
      w'.files = w.files.insertOrIgnore ⟨header.uid, name, (userDir env row.userName).str, 0⟩ ∧
      w.disk.mkdirs (userDir env row.userName) = (.ok (), d) ∧
      d.write ((userDir env row.userName).join name) content = .ok w'.disk ∧
      memcrc content = some crc ∧ Saving.checked header.uid payload name crc = .ok response := by
  by_cases hrefused : response = errorResponse
  · exact .inl hrefused
  by_cases hbad : header.version ≠ Constants.version ∨ uploadName payload = none
  · rw [serve, @Saving.reqSelect_not_sendFile env crypto (header, payload) hcode hbad] at h
    cases h
    exact absurd rfl hrefused
  · obtain ⟨hversion, hname⟩ := not_or.mp hbad
    obtain ⟨name, hname⟩ := Option.ne_none_iff_exists'.mp hname
    rw [serve, @Saving.reqSelect_sendFile env crypto name (header, payload)
      (not_not.mp hversion) hcode hname] at h
    obtain ⟨row, content, crc, d, hall⟩ := Saving.decrypt_answered h hrefused
    exact .inr ⟨name, row, content, crc, d, hname, hall⟩

/-- **An 826** is refused, or the row holds the key that was offered and the AES key in the
answer. -/
theorem offer_outcome (hcode : header.code = Constants.sPublicKey)
    (h : serve env crypto header payload w = (.ok (.response response), w')) :
    response = errorResponse ∨ ∃ row row', w.clients.find? (·.uuid = header.uid) = some row ∧
      w'.clients.find? (·.uuid = header.uid) = some row' ∧
      KeyExchange.Agreed crypto ⟨header.uid, Constants.inPublicKeyOutAes, errorResponse⟩
        (KeyExchange.offeredKey payload) response row row' ∧
      w'.files = w.files ∧ w'.disk = w.disk := by
  by_cases hrefused : response = errorResponse
  · exact .inl hrefused
  by_cases hbad : header.version ≠ Constants.version ∨
      header.code = Constants.sPublicKey ∧ payload.length ≤ Constants.publicKey
  · rw [serve, @KeyExchange.reqSelect_refused env crypto (header, payload) hbad] at h
    cases h
    exact absurd rfl hrefused
  · obtain ⟨hversion, hlong⟩ := not_or.mp hbad
    have hpayload : Constants.publicKey < payload.length := by
      by_contra hshort
      exact hlong ⟨hcode, Nat.le_of_not_lt hshort⟩
    rw [serve, @KeyExchange.reqSelect_publicKey env crypto (header, payload)
      (not_not.mp hversion) hcode hpayload, KeyExchange.ofRequest, if_pos hcode] at h
    exact .inr (KeyExchange.offer_answered h hrefused)

/-- **An 827** is refused, or the row holds the AES key in the answer, under the public key
that it had. -/
theorem signIn_outcome (hversion : header.version = Constants.version)
    (hcode : header.code = Constants.reconnect)
    (h : serve env crypto header payload w = (.ok (.response response), w')) :
    response = uidResponse Constants.recconetDenied header.uid ∨
      ∃ row row', w.clients.find? (·.uuid = header.uid) = some row ∧
        w'.clients.find? (·.uuid = header.uid) = some row' ∧
        KeyExchange.Agreed crypto ⟨header.uid, Constants.recconectApproved,
          uidResponse Constants.recconetDenied header.uid⟩ row.publicKey response row row' ∧
        w'.files = w.files ∧ w'.disk = w.disk := by
  by_cases hrefused : response = uidResponse Constants.recconetDenied header.uid
  · exact .inl hrefused
  · have hother : ¬ header.code = Constants.sPublicKey := by
      rw [hcode]
      decide
    rw [serve, @KeyExchange.reqSelect_signIn env crypto (header, payload) hversion hcode,
      KeyExchange.ofRequest, if_neg hother] at h
    exact .inr (KeyExchange.recover_answered h hrefused)

/-- **A 900** is refused, or the rows of its name are marked. -/
theorem confirm_outcome (hversion : header.version = Constants.version)
    (hcode : header.code = Constants.validCrc)
    (h : serve env crypto header payload w = (.ok (.response response), w')) :
    w'.clients = w.clients ∧ w'.disk = w.disk ∧
      (response = errorResponse ∧ w'.files = w.files ∨
        response = uidResponse Constants.fileApproval header.uid ∧
        ∃ name, finalName payload = some name ∧
          w'.files = markVerified w.files header.uid name) := by
  have hserve := @Step.serve_validCrc env crypto ⟨header, payload, w⟩ hversion hcode
  rw [h] at hserve
  cases hname : finalName payload with
  | none =>
    simp only [hname] at hserve
    cases hserve
    exact ⟨rfl, rfl, .inl ⟨rfl, rfl⟩⟩
  | some name =>
    simp only [hname] at hserve
    split at hserve
    · cases hserve
      exact ⟨rfl, rfl, .inl ⟨rfl, rfl⟩⟩
    · cases hserve
      exact ⟨rfl, rfl, .inr ⟨rfl, name, rfl, rfl⟩⟩

end Requests

end FileTransfer.Server
