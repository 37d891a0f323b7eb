import FileTransfer.Server.Concurrency
import FileTransfer.Server.FilesTable
import FileTransfer.Server.Saving

/-!
# The two tables fit together

`files` has no foreign key. What an upload inserts names the client all the same:
the user name was read from the row of that client, in an earlier critical
section, and since then no thread can have deleted the row or renamed the client.
-/

namespace FileTransfer.Server

open FileTransfer.Effect

/-- Every row of `files` belongs to a client, and lies in that client's
directory. -/
def World.Linked (env : Env) (w : World) : Prop :=
  ∀ row ∈ w.files, ∃ user, w.Registered row.uuid user ∧ row.pathName = (userDir env user).str

section Operation

variable {env : Env} {header : Header} {payload : Bytes} {o : Op} {w : World}

/-- Whoever is registered stays registered, whatever a thread does next. -/
theorem registered_exec {registered : Uid → Str → Prop} {fresh : Uid → Prop}
    (h : Footprint env registered fresh header payload o) :
    w.Registered ≤ (exec env o w).2.Registered := by
  intro uid user huser
  rcases names_exec h w with hsame | ⟨-, row, rfl, -⟩
  · rw [World.Registered, hsame]
    exact huser
  · rcases @exec_insert env row w with ⟨n, -, -, -, hnames⟩ | ⟨e, -, hnames⟩
    · rw [World.Registered, hnames]
      exact List.mem_append_left _ huser
    · rw [World.Registered, hnames]
      exact huser

/-- A user name that is read stays the right one. -/
theorem replies_mono {registered registered' : Uid → Str → Prop} {fresh : Uid → Prop}
    {r : Except Raised o.Reply} (hle : registered ≤ registered')
    (h : Replies registered fresh o r) : Replies registered' fresh o r := by
  cases o with
  | query q =>
    cases q with
    | selectClient field uid =>
      cases field with
      | userName => exact fun name hname => hle uid name (h name hname)
      | _ => trivial
    | _ => trivial
  | uuid4 => exact h
  | _ => trivial

/-- **One operation keeps the link**: a row is added only for a user name that was
read. -/
theorem linked_exec {fresh : Uid → Prop} (hw : w.Linked env)
    (h : Footprint env w.Registered fresh header payload o) :
    (exec env o w).2.Linked env := by
  have hgrows := registered_exec (w := w) h
  have hlinked : ∀ row ∈ w.files, ∃ user, (exec env o w).2.Registered row.uuid user ∧
      row.pathName = (userDir env user).str := by
    intro row hrow
    obtain ⟨user, huser, hpath⟩ := hw row hrow
    exact ⟨user, hgrows _ _ huser, hpath⟩
  intro row hrow
  rcases files_exec h w with heq | ⟨-, user, name, -, huser, heq⟩ | ⟨-, name, -, heq⟩ |
    ⟨-, name, -, heq⟩
  · exact hlinked row (heq ▸ hrow)
  · rw [heq] at hrow
    rcases Table.mem_insertOrIgnore.mp hrow with hold | ⟨rfl, -⟩
    · exact hlinked row hold
    · exact ⟨user, hgrows _ _ huser, rfl⟩
  · -- a mark leaves the uuid and the path alone
    rw [heq] at hrow
    obtain ⟨row', hrow', rfl⟩ := mem_markVerified.mp hrow
    have hrow'' := hlinked row' hrow'
    split
    · exact hrow''
    · exact hrow''
  · rw [heq] at hrow
    exact hlinked row (mem_dropUnverified.mp hrow).1

end Operation

section Threads

variable {env : Env} {crypto : Crypto} {disk : Disk} {c : Threads}

theorem linked_of_run
    (hrun : Pool.Run (exec env) (handleJob env crypto) (fun _ _ => True) (.initial (.init disk))
      c) : c.shared.Linked env := by
  refine hrun.invariant_of_uses (exec env) (handleJob env crypto) World.Registered
    (fun j registered => Footprint env registered (fun _ => True) j.1 j.2)
    (fun registered => Replies registered fun _ => True)
    (fun j registered => reqSelect_within crypto)
    (fun _ _ _ _ hle hreply => replies_mono hle hreply) ?_ (fun _ => rfl) ?_
  · intro j o w ho hw
    exact ⟨replies_exec (fun _ => trivial) o, registered_exec ho, linked_exec hw ho⟩
  · intro row hrow
    cases hrow

/-- **The tables fit together** after any interleaving: every row of `files` has
the uuid of a client and the path that the client's user name makes, and a uuid
has one row in each table. -/
theorem tables_fit
    (hrun : Pool.Run (exec env) (handleJob env crypto) (fun _ _ => True) (.initial (.init disk))
      c) :
    (∀ row ∈ c.shared.files, ∃ client ∈ c.shared.clients, client.uuid = row.uuid ∧
      row.pathName = (userDir env client.userName).str) ∧
    (c.shared.clients.rows.map (·.uuid)).Nodup ∧ (c.shared.files.rows.map (·.uuid)).Nodup := by
  refine ⟨fun row hrow => ?_, c.shared.clients.keys_nodup, c.shared.files.keys_nodup⟩
  obtain ⟨user, huser, hpath⟩ := linked_of_run hrun row hrow
  obtain ⟨client, hclient, huid, rfl⟩ := registered_iff.mp huser
  exact ⟨client, hclient, huid, hpath⟩

end Threads

/-- One thread registers `u`, exchanges keys and uploads `a`; while it uploads,
another thread registers `v`. -/
def busyServer : List (Action (Header × Bytes)) :=
  .start 0 (request (Uid.ofNat 0) 825 [0x75, 0x00]) :: List.replicate 5 (.advance 0) ++
    .start 0 (keyRequest (Uid.ofNat 1)) :: List.replicate 10 (.advance 0) ++
    .start 0 (uploadRequest (Uid.ofNat 1) [0x61]) ::
    .start 1 (request (Uid.ofNat 0) 825 [0x76, 0x00]) ::
    [0, 1, 0, 1, 0, 1, 0, 1, 0, 1, 0, 0, 0, 0].map .advance

/-- The upload is one of `a`, so nothing has to be decoded to follow it. -/
theorem follow_busyServer (check : Threads → Action (Header × Bytes) → Bool) (c : Threads) :
    Pool.follow (exec (.calm Uid.ofNat)) (handleJob (.calm Uid.ofNat) toyCrypto) check c
        busyServer =
      Pool.follow (exec (.calm Uid.ofNat)) (fun j =>
        if j.1.code = Constants.sendFile then
          Saving.decrypt (.calm Uid.ofNat) toyCrypto j.1.uid j.2 ['a']
        else handleJob (.calm Uid.ofNat) toyCrypto j) check c busyServer := by
  refine Pool.follow_congr _ _ (fun t j hstart => ?_) c
  split
  · next hcode =>
    have hupload : j = uploadRequest (Uid.ofNat 1) [0x61] := by
      simp only [busyServer, List.mem_append, List.mem_cons, List.mem_replicate, List.mem_map,
        Action.start.injEq, reduceCtorEq, and_false, exists_false, or_false] at hstart
      rcases hstart with (⟨-, rfl⟩ | ⟨-, rfl⟩) | ⟨-, rfl⟩ | ⟨-, rfl⟩
      · cases hcode
      · cases hcode
      · rfl
      · cases hcode
    rw [hupload]
    exact Saving.reqSelect_uploadRequest (.calm Uid.ofNat) toyCrypto (Uid.ofNat 1) (by decide)
      (by decide) (by decide)
  · rfl

/-- There are two clients then, and the row of the upload belongs to the first. -/
theorem busyServer_fits :
    ∃ c : Threads, c.shared.userNames = [['u', '\x00'], ['v', '\x00']] ∧
      c.shared.files.rows = [⟨Uid.ofNat 1, ['a'], "/b/u".toList, 0⟩] ∧
      ∃ client ∈ c.shared.clients, client.uuid = Uid.ofNat 1 ∧
        "/b/u".toList = (userDir (.calm Uid.ofNat) client.userName).str := by
  obtain ⟨c, hc, hfacts⟩ : ∃ c, Pool.follow (exec (.calm Uid.ofNat))
      (handleJob (.calm Uid.ofNat) toyCrypto) (fun _ _ => true) (.initial (.init .bare))
      busyServer = some c ∧
      (c.shared.userNames, c.shared.files.rows) = ([['u', '\x00'], ['v', '\x00']],
        [⟨Uid.ofNat 1, ['a'], "/b/u".toList, 0⟩]) := by
    rw [follow_busyServer]
    exact Option.map_eq_some_iff.mp (by decide +kernel)
  obtain ⟨hnames, hrows⟩ := Prod.mk.inj hfacts
  have hfit := tables_fit (Pool.run_of_follow _ _ (I := fun _ => True)
    (fun _ _ _ _ _ _ => trivial) (fun _ _ _ _ => trivial) .refl trivial hc)
  refine ⟨c, hnames, hrows, hfit.1 ⟨Uid.ofNat 1, ['a'], "/b/u".toList, 0⟩ ?_⟩
  rw [← Table.mem_rows, hrows]
  exact List.mem_singleton_self _

end FileTransfer.Server
