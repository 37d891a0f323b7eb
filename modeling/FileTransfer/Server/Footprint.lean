import FileTransfer.Server.Semantics

/-!
# What a request can do

`Footprint` lists, once, every operation a request can perform, with the code
it needs and where its arguments come from. `reqSelect_uses` says the list is
complete. Every invariant of the server is proved from it, by a look at these
operations; no proof goes through the handlers again.
-/

namespace FileTransfer.Server

open FileTransfer.Effect

/-! ## File names in payloads -/

/-- The name in a slice of the payload, without pipes. -/
def unpaddedName (payload : Bytes) (start stop : Nat) : Option Str :=
  (utf8Decode (slice payload start stop)).map (·.filter (· ≠ '|'))

/-- The file name an upload (828) carries. -/
def uploadName (payload : Bytes) : Option Str :=
  unpaddedName payload Constants.nameIndex Constants.contentIndex

/-- The file name a confirmation (900) or an abort (902) carries. -/
def finalName (payload : Bytes) : Option Str := unpaddedName payload 0 Constants.fileNameSize

/-- Padding with pipes is undone. -/
theorem unpaddedName_of_padded {payload : Bytes} {start stop n : Nat} {name : Str}
    (hslice : slice payload start stop = utf8Encode (name ++ List.replicate n '|'))
    (hpipe : '|' ∉ name) : unpaddedName payload start stop = some name := by
  have hfilter : (name ++ List.replicate n '|').filter (fun c => decide (c ≠ '|')) = name := by
    rw [List.filter_append, List.filter_replicate, List.filter_eq_self.mpr]
    · simp
    · intro c hc
      simp only [ne_eq, decide_not, Bool.not_eq_true', decide_eq_false_iff_not]
      exact fun heq => hpipe (heq ▸ hc)
  rw [unpaddedName, hslice, utf8Decode_utf8Encode, Option.map_some, hfilter]

/-- Dropping characters makes no encoding longer. -/
theorem length_utf8Encode_filter (p : Char → Bool) (s : Str) :
    (utf8Encode (s.filter p)).length ≤ (utf8Encode s).length :=
  (List.filter_sublist.flatMap _).length_le

/-- A name is no longer than the slice it is read from. -/
theorem length_unpaddedName {payload : Bytes} {start stop : Nat} {name : Str}
    (h : unpaddedName payload start stop = some name) :
    (utf8Encode name).length ≤ stop - start := by
  obtain ⟨decoded, hdecode, rfl⟩ := Option.map_eq_some_iff.mp h
  calc (utf8Encode (decoded.filter (· ≠ '|'))).length
      ≤ (utf8Encode decoded).length := length_utf8Encode_filter _ _
    _ = (slice payload start stop).length := by rw [utf8Encode_of_decode hdecode]
    _ ≤ stop - start := by
      rw [slice, List.length_drop, List.length_take]
      omega

theorem run_removePipePadding (env : Env) (payload : Bytes) (start stop : Nat) (w : World) :
    Program.run (exec env) (removePipePadding payload start stop) w =
      match unpaddedName payload start stop with
      | some name => (.ok name, w)
      | none => (.error (.exception .parsingData), w) := by
  simp only [removePipePadding, unpaddedName]
  cases utf8Decode (slice payload start stop) <;> rfl

theorem run_removePipePadding_ok {env : Env} {payload : Bytes} {start stop : Nat} {w w' : World}
    {name : Str} :
    Program.run (exec env) (removePipePadding payload start stop) w = (.ok name, w') ↔
      unpaddedName payload start stop = some name ∧ w' = w := by
  rw [run_removePipePadding]
  cases unpaddedName payload start stop with
  | none => simp
  | some name' => simp [eq_comm]

/-! ## The list -/

section Footprint

variable (env : Env) (registered : Uid → Str → Prop) (fresh : Uid → Prop)

/-- What can be known of a reply: a user name that is read is registered under
that uid, and a uid that is drawn is fresh. -/
def Replies : (o : Op) → Except Raised o.Reply → Prop
  | .query (.selectClient .userName uid), r => ∀ name, r = .ok (some name) → registered uid name
  | .uuid4, r => ∀ uid, r = .ok uid → fresh uid
  | _, _ => True

/-- The operations of one request. -/
inductive Footprint (header : Header) (payload : Bytes) : Op → Prop where
  | now : Footprint header payload .now
  | findUsername {name : Str} (hcode : header.code = Constants.register)
      (hname : asciiDecode payload = some name) :
      Footprint header payload (.query (.selectUuid name))
  | uuid4 (hcode : header.code = Constants.register) : Footprint header payload .uuid4
  | insertClient {uid : Uid} {name now : Str} (hcode : header.code = Constants.register)
      (hname : asciiDecode payload = some name) (hfresh : fresh uid) :
      Footprint header payload
        (.query (.insertClient ⟨uid, name, publicKeyPlaceholder, now, aesKeyPlaceholder⟩))
  | getData (field : ClientField) (hcode : header.code ≠ Constants.register) :
      Footprint header payload (.query (.selectClient field header.uid))
  | randomBytes (n : Nat)
      (hcode : header.code = Constants.sPublicKey ∨ header.code = Constants.reconnect) :
      Footprint header payload (.randomBytes n)
  | setPublicKey (key : Bytes) (hcode : header.code = Constants.sPublicKey) :
      Footprint header payload (.query (.update (.client .publicKey key) header.uid))
  | setAesKey (key : Bytes)
      (hcode : header.code = Constants.sPublicKey ∨ header.code = Constants.reconnect) :
      Footprint header payload (.query (.update (.client .aesKey key) header.uid))
  | setLastSeen (now : Str)
      (hcode : header.code = Constants.sPublicKey ∨ header.code = Constants.reconnect) :
      Footprint header payload (.query (.update (.client .lastSeen now) header.uid))
  | mkdir {user : Str} (hcode : header.code = Constants.sendFile)
      (huser : registered header.uid user) : Footprint header payload (.mkdir (userDir env user))
  | writeFile {user name : Str} (content : Bytes) (hcode : header.code = Constants.sendFile)
      (hname : uploadName payload = some name) (huser : registered header.uid user) :
      Footprint header payload (.writeFile ((userDir env user).join name) content)
  | readFile {user name : Str} (hcode : header.code = Constants.sendFile)
      (hname : uploadName payload = some name) (huser : registered header.uid user) :
      Footprint header payload (.readFile ((userDir env user).join name))
  | insertFile {user name : Str} (hcode : header.code = Constants.sendFile)
      (hname : uploadName payload = some name) (huser : registered header.uid user) :
      Footprint header payload
        (.query (.insertFile ⟨header.uid, name, (userDir env user).str, 0⟩))
  | verify {name : Str} (hcode : header.code = Constants.validCrc)
      (hname : finalName payload = some name) (hne : name ≠ []) :
      Footprint header payload (.query (.updateNamed (.verified 1) header.uid name))
  | verifyAll (hcode : header.code = Constants.validCrc) (hname : finalName payload = some []) :
      Footprint header payload (.query (.update (.verified 1) header.uid))
  | remove {user name : Str} (hcode : header.code = Constants.exitCrc)
      (hname : finalName payload = some name) (huser : registered header.uid user) :
      Footprint header payload (.remove ((userDir env user).join name))
  | deleteUnverified {name : Str} (hcode : header.code = Constants.exitCrc)
      (hname : finalName payload = some name) :
      Footprint header payload (.query (.deleteUnverified header.uid name))

end Footprint

/-! ## The list is complete -/

section Within

/-- `p` stays within the footprint of a request, and what it returns satisfies
`post`. -/
abbrev Within (env : Env) (registered : Uid → Str → Prop) (fresh : Uid → Prop)
    (header : Header) (payload : Bytes) {α : Type} (p : Py α) (post : α → Prop) : Prop :=
  p.Uses (Footprint env registered fresh header payload) (Replies registered fresh) post

variable {env : Env} {registered : Uid → Str → Prop} {fresh : Uid → Prop} {header : Header}
  {payload : Bytes} {α : Type} {post : α → Prop}

theorem within_raise (e : Exn) :
    Within env registered fresh header payload (raise e : Py α) post := trivial

theorem within_ofExcept (x : Except Exn α) :
    Within env registered fresh header payload (ofExcept x) fun _ => True := by
  cases x <;> trivial

theorem within_tryExcept {body : Py α} {handler : Exn → Py α}
    (hbody : Within env registered fresh header payload body post)
    (hhandler : ∀ e, Within env registered fresh header payload (handler e) post) :
    Within env registered fresh header payload (tryExcept body handler) post := by
  refine hbody.tryCatch fun e => ?_
  cases e with
  | exception e => exact hhandler e
  | systemExit => trivial

theorem within_runThreadQuery {q : Query}
    (h : Footprint env registered fresh header payload (.query q)) :
    Within env registered fresh header payload (runThreadQuery q) fun r =>
      Replies registered fresh (.query q) (.ok r) :=
  @Program.uses_op sig Raised _ (Replies registered fresh) _ h

theorem within_getCurrentTimedate :
    Within env registered fresh header payload getCurrentTimedate fun _ => True :=
  (@Program.uses_op sig Raised _ (Replies registered fresh) _ .now).mono fun _ _ => trivial

/-! The helpers of `DefensiveDB.py`. -/

theorem within_getData (field : ClientField) (hcode : header.code ≠ Constants.register) :
    Within env registered fresh header payload (getData field header.uid) fun _ => True := by
  refine within_tryExcept ((within_runThreadQuery (.getData field hcode)).bind fun r _ => ?_)
    fun _ => within_raise _
  cases r with
  | none => exact within_raise _
  | some v => exact Program.uses_ret trivial

/-- A user name that is read is registered. -/
theorem within_getUserName (hcode : header.code ≠ Constants.register) :
    Within env registered fresh header payload (getData .userName header.uid)
      (registered header.uid) := by
  refine within_tryExcept ((within_runThreadQuery (.getData .userName hcode)).bind fun r hr => ?_)
    fun _ => within_raise _
  cases r with
  | none => exact within_raise _
  | some v => exact Program.uses_ret (hr v rfl)

/-- Setting a key also sets the time the client was last seen. -/
theorem within_updateClient {field : ClientField} {data : field.Ty}
    (hfield : Footprint env registered fresh header payload
      (.query (.update (.client field data) header.uid)))
    (hcode : header.code = Constants.sPublicKey ∨ header.code = Constants.reconnect) :
    Within env registered fresh header payload
      (updateEntry (.client field data) header.uid false []) fun _ => True := by
  refine within_tryExcept ?_ fun _ => within_raise _
  refine (within_runThreadQuery hfield).bind fun _ _ => ?_
  refine within_getCurrentTimedate.bind fun now _ => ?_
  exact (within_runThreadQuery (.setLastSeen now hcode)).bind fun _ _ => Program.uses_ret trivial

theorem within_updateVerified {name : Str} (hcode : header.code = Constants.validCrc)
    (hname : finalName payload = some name) :
    Within env registered fresh header payload
      (updateEntry (.verified 1) header.uid true name) fun _ => True := by
  refine within_tryExcept ?_ fun _ => within_raise _
  by_cases hne : name = []
  · subst hne
    exact (within_runThreadQuery (.verifyAll hcode hname)).bind fun _ _ => Program.uses_ret trivial
  · have hbranch : (true = true ∧ name ≠ []) := ⟨rfl, hne⟩
    dsimp only
    rw [if_pos hbranch]
    refine (within_runThreadQuery (.verify hcode hname hne)).bind fun _ _ => ?_
    exact Program.uses_ret trivial

theorem within_addNewFileDb {name : Str} (hcode : header.code = Constants.sendFile)
    (hname : uploadName payload = some name) :
    Within env registered fresh header payload
      (addNewFileDb env header.uid name 0) fun _ => True := by
  have hother : header.code ≠ Constants.register := by rw [hcode]; decide
  refine within_tryExcept ?_ fun _ => within_raise _
  refine (within_getUserName hother).bind fun user huser => ?_
  exact (within_runThreadQuery (.insertFile hcode hname huser)).bind fun _ _ =>
    Program.uses_ret trivial

/-! The handlers. -/

theorem within_registerNewClient (hcode : header.code = Constants.register) (version : Nat) :
    Within env registered fresh header payload
      (registerNewClient header.uid version payload) fun _ => True := by
  refine within_tryExcept ?_ fun _ => Program.uses_ret trivial
  split
  · exact within_raise _
  · next name hname =>
    have hfind : Within env registered fresh header payload (findUsername name) fun _ => True := by
      refine (within_runThreadQuery (.findUsername hcode hname)).bind fun r _ => ?_
      cases r <;> exact Program.uses_ret trivial
    have hadd : Within env registered fresh header payload (addNewClientToDb name)
        fun _ => True := by
      refine (@Program.uses_op sig Raised _ (Replies registered fresh) _ (.uuid4 hcode)).bind
        fun uid hfresh => ?_
      have hinsert : Within env registered fresh header payload (addNewClientDb uid name)
          fun _ => True := by
        refine within_tryExcept ?_ fun _ => within_raise _
        refine within_getCurrentTimedate.bind fun now _ => ?_
        exact (within_runThreadQuery (.insertClient hcode hname (hfresh uid rfl))).bind
          fun _ _ => Program.uses_ret trivial
      exact hinsert.bind fun _ _ => Program.uses_ret trivial
    refine hfind.bind fun found _ => ?_
    split
    split
    · exact within_ofExcept _
    · exact hadd.bind fun uid _ => within_ofExcept _

variable (crypto : Crypto)

/-- Both key exchanges draw a key, store it and encrypt it. -/
theorem within_generateAesKey
    (hcode : header.code = Constants.sPublicKey ∨ header.code = Constants.reconnect) :
    Within env registered fresh header payload (generateAesKey crypto header.uid)
      fun _ => True := by
  have hother : header.code ≠ Constants.register := by
    rcases hcode with h | h <;> rw [h] <;> decide
  have hrandom : ∀ n, Within env registered fresh header payload (getRandomBytes n)
      fun _ => True := fun n =>
    (@Program.uses_op sig Raised _ (Replies registered fresh) _ (.randomBytes n hcode)).mono
      fun _ _ => trivial
  have hrecover : Within env registered fresh header payload (recoverPublicKey crypto header.uid)
      fun _ => True := by
    refine (within_getData .publicKey hother).bind fun key _ => ?_
    split
    · exact within_raise _
    · refine (within_ofExcept _).bind fun rsaKey _ => ?_
      cases rsaKey with
      | none => exact within_raise _
      | some k =>
        simp only [recoverPublicKeyExceptions]
        split
        · exact within_raise _
        · exact Program.uses_ret trivial
  refine hrecover.bind fun rsaKey _ => ?_
  refine (hrandom _).bind fun aesKey _ => ?_
  refine (within_updateClient (.setAesKey aesKey hcode) hcode).bind fun _ _ => ?_
  exact (hrandom _).bind fun seed _ => within_ofExcept _

theorem within_handlePublicKey (hcode : header.code = Constants.sPublicKey) (version : Nat) :
    Within env registered fresh header payload
      (handlePublicKey crypto header.uid version payload) fun _ => True := by
  refine within_tryExcept ?_ fun _ => Program.uses_ret trivial
  have hset : Within env registered fresh header payload (setPublicKey header.uid payload)
      fun _ => True := by
    have hvalid : Within env registered fresh header payload (validatePublicKeyPayload payload)
        fun _ => True := by
      simp only [validatePublicKeyPayload]
      split
      · exact within_raise _
      · split
        · exact within_raise _
        · exact Program.uses_ret trivial
    exact hvalid.bind fun _ _ => within_updateClient (.setPublicKey _ hcode) (.inl hcode)
  refine hset.bind fun _ _ => ?_
  exact (within_generateAesKey crypto (.inl hcode)).bind fun aes _ => within_ofExcept _

theorem within_handleSignInReqeust (hcode : header.code = Constants.reconnect) (version : Nat) :
    Within env registered fresh header payload
      (handleSignInReqeust crypto header.uid version payload) fun _ => True :=
  within_tryExcept
    ((within_generateAesKey crypto (.inr hcode)).bind fun _ _ => within_ofExcept _)
    fun _ => within_ofExcept _

theorem within_removePipePadding (start stop : Nat) :
    Within env registered fresh header payload (removePipePadding payload start stop)
      fun name => unpaddedName payload start stop = some name := by
  simp only [removePipePadding, unpaddedName]
  cases utf8Decode (slice payload start stop) with
  | none => exact within_raise _
  | some name => exact Program.uses_ret rfl

theorem within_handleEncryptedFile (hcode : header.code = Constants.sendFile) (version : Nat) :
    Within env registered fresh header payload
      (handleEncryptedFile env crypto header.uid version payload) fun _ => True := by
  have hother : header.code ≠ Constants.register := by rw [hcode]; decide
  refine within_tryExcept ?_ fun _ => Program.uses_ret trivial
  -- every path below is built from this name and the user name read
  refine (within_removePipePadding _ _).bind fun name hname => ?_
  have hdecrypt : Within env registered fresh header payload
      (decryptFile crypto header.uid payload) fun _ => True := by
    refine within_tryExcept ?_ fun _ => within_raise _
    refine (within_getData .aesKey hother).bind fun key _ => ?_
    exact (within_ofExcept _).bind fun _ _ => within_ofExcept _
  refine hdecrypt.bind fun file _ => ?_
  have hsave : Within env registered fresh header payload (saveFile env header.uid name file)
      fun _ => True := by
    refine within_tryExcept ?_ fun _ => within_raise _
    refine (within_getUserName hother).bind fun user huser => ?_
    refine (@Program.uses_op sig Raised _ (Replies registered fresh) _ (.mkdir hcode huser)).bind
      fun _ _ => ?_
    refine (@Program.uses_op sig Raised _ (Replies registered fresh) _
      (.writeFile file hcode hname huser)).bind fun _ _ => ?_
    exact within_addNewFileDb hcode hname
  refine hsave.bind fun _ _ => ?_
  have hbuild : Within env registered fresh header payload
      (buildDecryptedFilePayload env header.uid name payload) fun _ => True := by
    refine (within_getUserName hother).bind fun user huser => ?_
    have hread : Within env registered fresh header payload
        (readfile ((userDir env user).join name)) fun _ => True := by
      refine within_tryExcept ?_ fun _ => Program.uses_throw _
      refine (@Program.uses_op sig Raised _ (Replies registered fresh) _
        (.readFile hcode hname huser)).bind fun buffer _ => ?_
      cases memcrc buffer with
      | none => exact within_raise _
      | some crc => exact Program.uses_ret trivial
    refine hread.bind fun crc _ => ?_
    exact (within_ofExcept _).bind fun _ _ => Program.uses_ret trivial
  exact hbuild.bind fun pay _ => within_ofExcept _

theorem within_validOrAbort
    (hcode : header.code = Constants.validCrc ∨ header.code = Constants.exitCrc) :
    Within env registered fresh header payload
      (validOrAbort env header.uid header.code payload) fun _ => True := by
  refine within_tryExcept ?_ fun _ => Program.uses_ret trivial
  refine (within_removePipePadding _ _).bind fun name hname => ?_
  rcases hcode with hcode | hcode
  · dsimp only
    rw [if_pos hcode]
    exact (within_updateVerified hcode hname).bind fun _ _ => within_ofExcept _
  · have hother : header.code ≠ Constants.register := by rw [hcode]; decide
    have hnot : header.code ≠ Constants.validCrc := by rw [hcode]; decide
    dsimp only
    rw [if_neg hnot, if_pos hcode]
    have hdelete : Within env registered fresh header payload
        (deleteFromBackup env header.uid name) fun _ => True := by
      refine within_tryExcept ?_ fun _ => Program.uses_ret trivial
      refine (within_getUserName hother).bind fun user huser => ?_
      exact (@Program.uses_op sig Raised _ (Replies registered fresh) _
        (.remove hcode hname huser)).bind fun _ _ => Program.uses_ret trivial
    have hrow : Within env registered fresh header payload (Server.deleteUnverified header.uid name)
        fun _ => True :=
      within_tryExcept ((within_runThreadQuery (.deleteUnverified hcode hname)).bind
        fun _ _ => Program.uses_ret trivial) fun _ => within_raise _
    exact hdelete.bind fun _ _ => hrow.bind fun _ _ => within_ofExcept _

/-- **The footprint is complete**: a request performs no operation outside it. -/
theorem reqSelect_within :
    Within env registered fresh header payload (reqSelect env crypto header payload)
      fun _ => True := by
  have hrespond : ∀ {handler : Uid → Nat → Bytes → Py Bytes} {arg : Nat},
      Within env registered fresh header payload (handler header.uid arg payload)
        (fun _ => True) →
      Within env registered fresh header payload (respond handler header.uid arg payload)
        fun _ => True :=
    fun h => h.bind fun _ _ => Program.uses_ret trivial
  simp only [reqSelect]
  split
  · exact Program.uses_ret trivial
  generalize harg : (if header.code = Constants.exitCrc ∨ header.code = Constants.validCrc then
    header.code else header.version) = arg
  unfold responseMap
  by_cases hregister : header.code = Constants.register
  · rw [if_pos hregister]
    exact hrespond (within_registerNewClient hregister arg)
  rw [if_neg hregister]
  by_cases hkey : header.code = Constants.sPublicKey
  · rw [if_pos hkey]
    exact hrespond (within_handlePublicKey crypto hkey arg)
  rw [if_neg hkey]
  by_cases hsend : header.code = Constants.sendFile
  · rw [if_pos hsend]
    exact hrespond (within_handleEncryptedFile crypto hsend arg)
  rw [if_neg hsend]
  by_cases hsign : header.code = Constants.reconnect
  · rw [if_pos hsign]
    exact hrespond (within_handleSignInReqeust crypto hsign arg)
  rw [if_neg hsign]
  by_cases hresend : header.code = Constants.nValidCrc
  · rw [if_pos hresend]
    exact Program.uses_ret trivial
  rw [if_neg hresend]
  by_cases hexit : header.code = Constants.exitCrc
  · rw [if_pos (Or.inl hexit)] at harg
    rw [if_pos hexit, ← harg]
    exact hrespond (within_validOrAbort (.inr hexit))
  rw [if_neg hexit]
  by_cases hvalid : header.code = Constants.validCrc
  · rw [if_pos (Or.inr hvalid)] at harg
    rw [if_pos hvalid, ← harg]
    exact hrespond (within_validOrAbort (.inl hvalid))
  rw [if_neg hvalid]
  exact within_raise _

end Within

end FileTransfer.Server
