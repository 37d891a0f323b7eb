import FileTransfer.EndToEnd.Uploaded
import FileTransfer.Server.Frame
import FileTransfer.Server.Undisturbed

/-!
# Other clients spare an upload

What the requests of other clients do to the row, the listing and the file of one
client: nothing, as long as user names are plain text with their terminator and files
are named within their directory. This is an invariant of the server, so it serves any
number of requests of any other clients, in any order.
-/

namespace FileTransfer.EndToEnd

open FileTransfer.Server FileTransfer.PurePath

variable {env : Env} {crypto : Crypto} {uid : Uid} {name : Str} {w w' w'' : World} {s : Step}

/-- The request of a client other than `uid`, with plain names. -/
structure OfAnother (uid : Uid) (header : Header) (payload : Bytes) : Prop
    extends PlainNames header payload where
  uid_ne : header.uid ≠ uid

/-! ## One request of another client -/

theorem Spares.refl (env : Env) (uid : Uid) (name : Str) (w : World) : Spares env uid name w w :=
  ⟨rfl, fun _ hrow _ => hrow, fun _ _ _ hread => hread⟩

theorem Spares.trans (h : Spares env uid name w w') (h' : Spares env uid name w' w'') :
    Spares env uid name w w'' := by
  refine ⟨h'.client.trans h.client, fun frow hmem huid => ?_, fun row content hrow hread => ?_⟩
  · exact h'.row frow (h.row frow hmem huid) huid
  · exact h'.content row content (h.client.trans hrow) (h.content row content hrow hread)

/-- **A request of another client spares this one**: its row, what is listed of it, and
its file. -/
theorem spares_after (h : OfAnother uid s.header s.payload) (hs : Tidy s.before)
    (hregistered : ∃ user, s.before.Registered uid user) (hname : Plain name) :
    Spares env uid name s.before (s.after env crypto) := by
  have hclients : ClientsFrame s.header s.before.clients (s.after env crypto).clients :=
    Step.clientsFrame_after
  have hfiles : FilesFrame s.header s.before.files (s.after env crypto).files :=
    Step.filesFrame_after
  constructor
  · obtain ⟨user, huser⟩ := hregistered
    obtain ⟨row, hrow, rfl, -⟩ := registered_iff.mp huser
    rw [Table.find?_key hrow]
    exact Table.find?_key (hclients.others row hrow h.uid_ne.symm)
  · intro frow hmem huid
    exact (hfiles.others frow fun hsame => h.uid_ne (hsame.symm.trans huid)).mpr hmem
  · intro row content hrow hread
    rw [Step.fileAt_after ?_]
    · exact hread
    · intro htouches
      obtain ⟨user, name', huser, hfile, hloc⟩ := Step.mem_touches htouches
      have hplain : Plain name' := by
        rw [Step.fileName] at hfile
        split at hfile
        · next hcode => exact h.upload hcode name' hfile
        · split at hfile
          · next hcode => exact h.abort hcode name' hfile
          · cases hfile
      rw [resolve_join_plain _ hname, resolve_join_plain _ hplain] at hloc
      obtain ⟨hdir, -⟩ := List.append_inj' hloc rfl
      exact hs.distinctDirs _ _ _ _ huser (registered_of_find? hrow) h.uid_ne hdir.symm

/-! ## Any number of them -/

/-- The world in which the client is safe from others. -/
def SafeFor (uid : Uid) (w : World) : Prop := Tidy w ∧ ∃ user, w.Registered uid user

/-- Safety, read off the names in the table. -/
theorem safeFor_of_names {user : Str} (hmine : (uid, user) ∈ w.names)
    (hterminated : ∀ x ∈ w.names, Plain x.2.dropLast ∧ x.2 = x.2.dropLast ++ ['\x00'])
    (hunique : ∀ x ∈ w.names, ∀ y ∈ w.names, x.2 = y.2 → x.1 = y.1) : SafeFor uid w :=
  ⟨⟨fun u user hregistered => ⟨user.dropLast, hterminated (u, user) hregistered⟩,
    fun u v user hu hv => hunique (u, user) hu (v, user) hv rfl⟩, user, hmine⟩

theorem safeFor_after (h : SafeFor uid s.before)
    (huser : ∀ user, Registers s.header s.payload user → Terminated user) :
    SafeFor uid (s.after env crypto) := by
  obtain ⟨htidy, user, hregistered⟩ := h
  exact ⟨tidy_after htidy huser, user, Step.registered_after hregistered⟩

theorem spares_handleAll {requests : List (Header × Bytes)}
    (h : ∀ j ∈ requests, OfAnother uid j.1 j.2) (hname : Plain name) (hs : SafeFor uid w) :
    Spares env uid name w (handleAll env crypto w requests) ∧
      SafeFor uid (handleAll env crypto w requests) := by
  induction requests generalizing w with
  | nil => exact ⟨.refl env uid name w, hs⟩
  | cons j rest ih =>
    have hj := h j (List.mem_cons_self ..)
    have hstep := @spares_after env crypto uid name ⟨j.1, j.2, w⟩ hj hs.1 hs.2 hname
    have hsafe : SafeFor uid (Step.after env crypto ⟨j.1, j.2, w⟩) :=
      safeFor_after hs fun user hregisters => hj.user hregisters.code user hregisters.name
    obtain ⟨hrest, hsafe'⟩ := ih (fun j' hj' => h j' (List.mem_cons_of_mem _ hj')) hsafe
    exact ⟨hstep.trans hrest, hsafe'⟩

/-- **Other clients spare an upload**, whatever they request between two requests of its
client. -/
theorem sparing_others {others : Nat → List (Header × Bytes)}
    (h : ∀ n, ∀ j ∈ others n, OfAnother uid j.1 j.2) (hname : Plain name) :
    Sparing env crypto (fun n w => handleAll env crypto w (others n)) (SafeFor uid) uid name where
  spares n _ hsafe := (spares_handleAll (h n) hname hsafe).1
  kept n _ hsafe := (spares_handleAll (h n) hname hsafe).2
  served _ _ hcode hsafe :=
    safeFor_after hsafe fun _ hregisters => absurd hregisters.code hcode

end FileTransfer.EndToEnd
