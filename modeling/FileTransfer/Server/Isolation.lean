import FileTransfer.Server.Registration
import FileTransfer.Server.Touch

/-!
# Clients that share a directory

`find_username` compares whole user names; the directory is the name without
its last character, whatever that is. Two names that differ only there are two
clients with one directory. When every admitted name has a directory of its own
and uploads stay in their client's directory, clients cannot reach each other's
files.
-/

namespace FileTransfer.Server

open FileTransfer.Effect
open FileTransfer.PurePath

/-- Different uids have different directories. -/
def World.DistinctDirs (env : Env) (w : World) : Prop :=
  ∀ u v nameU nameV, w.Registered u nameU → w.Registered v nameV → u ≠ v →
    (userDir env nameU).resolve ≠ (userDir env nameV).resolve

/-- For plain names the directory is the name without its last character. -/
theorem userDir_eq_iff {env : Env} {name name' : Str} (h : Plain name.dropLast)
    (h' : Plain name'.dropLast) :
    (userDir env name).resolve = (userDir env name').resolve ↔ name.dropLast = name'.dropLast := by
  rw [userDir, userDir, resolve_join_plain _ h, resolve_join_plain _ h']
  simp

/-- Different clients have different directories, and no upload or abort with a
plain file name touches a file that an upload of another uid has written. -/
structure Isolated (env : Env) (crypto : Crypto) (hist : List Step) (w : World) : Prop where
  dirs : w.DistinctDirs env
  files : ∀ pre s post, hist = pre ++ s :: post →
    ∀ name, s.fileName = some name → Plain name →
    ∀ t ∈ pre, t.header.uid ≠ s.header.uid →
    ∀ loc, t.Wrote env crypto loc → loc ∉ s.touches env crypto

/-- What a step must not do: register a name whose directory is taken, or upload
to somewhere outside its client's own directory. -/
structure Step.Isolating (env : Env) (crypto : Crypto) (s : Step) : Prop where
  dir : ∀ name, s.Admits env name → ∀ v nameV, s.before.Registered v nameV →
    (userDir env name).resolve ≠ (userDir env nameV).resolve
  file : ∀ user name loc, s.before.Registered s.header.uid user →
    uploadName s.payload = some name → s.Opens env crypto loc →
    Descends (userDir env user) name

namespace Step

variable {env : Env} {crypto : Crypto} {s : Step}

/-- The step lemma for directories. -/
theorem distinctDirs_after (hs : s.Isolating env crypto) (h : s.before.DistinctDirs env) :
    (s.after env crypto).DistinctDirs env := by
  intro u v nameU nameV hu hv hne
  rcases registered_before hu with hu | ⟨hadmits, rfl⟩
  · rcases registered_before hv with hv | ⟨hadmits, rfl⟩
    · exact h u v nameU nameV hu hv hne
    · exact (hs.dir nameV hadmits u nameU hu).symm
  · rcases registered_before hv with hv | ⟨-, rfl⟩
    · exact hs.dir nameU hadmits v nameV hv
    · exact absurd rfl hne

/-- An upload writes directly in its client's directory. -/
theorem wrote_inside (hs : s.Isolating env crypto) {loc : Location} (h : s.Wrote env crypto loc) :
    ∃ user file, s.before.Registered s.header.uid user ∧
      loc = (userDir env user).resolve ++ [file] := by
  obtain ⟨hcode, htouches⟩ := h
  have hopens := (touches_upload_iff hcode).mp htouches
  obtain ⟨user, name, huser, hname, hloc⟩ := mem_touches htouches
  rw [fileName, if_pos hcode] at hname
  obtain ⟨file, hfile⟩ := hs.file user name loc huser hname hopens
  exact ⟨user, file, huser, hloc.trans hfile⟩

end Step

variable {env : Env} {crypto : Crypto} {disk : Disk} {hist : List Step} {w : World}

theorem distinctDirs_of_run
    (hrun : Run env crypto (Step.Isolating env crypto) (.init disk) hist w) :
    w.DistinctDirs env := by
  refine hrun.invariant (I := fun w => w.DistinctDirs env) ?_ fun s => Step.distinctDirs_after
  intro u v nameU nameV hu
  cases hu

/-- Who wrote a file earlier is still registered, and the file lies directly in
its directory. -/
theorem writer_of_run (hrun : Run env crypto (Step.Isolating env crypto) (.init disk) hist w)
    {t : Step} (ht : t ∈ hist) {loc : Location} (hwrote : t.Wrote env crypto loc) :
    ∃ user file, w.Registered t.header.uid user ∧ loc = (userDir env user).resolve ++ [file] := by
  induction hrun with
  | start => cases ht
  | @event hist s hrun hs ih =>
    have hkeep : (∃ user file, s.before.Registered t.header.uid user ∧
        loc = (userDir env user).resolve ++ [file]) →
        ∃ user file, (s.after env crypto).Registered t.header.uid user ∧
          loc = (userDir env user).resolve ++ [file] := by
      rintro ⟨user, file, huser, hloc⟩
      exact ⟨user, file, Step.registered_after huser, hloc⟩
    rcases List.mem_append.mp ht with ht | ht
    · exact hkeep (ih ht)
    · obtain rfl := List.mem_singleton.mp ht
      exact hkeep (Step.wrote_inside hs hwrote)

/-- **Clients are isolated** in every run that admits no second name for a
directory and uploads nothing outside the client's own. -/
theorem clients_isolated
    (hrun : Run env crypto (Step.Isolating env crypto) (.init disk) hist w) :
    Isolated env crypto hist w := by
  refine ⟨distinctDirs_of_run hrun, ?_⟩
  rintro pre s post rfl name hname hplain t ht hne loc hwrote htouches
  obtain ⟨hpre, -, -⟩ := hrun.of_split
  obtain ⟨userT, file, huserT, hloc⟩ := writer_of_run hpre ht hwrote
  obtain ⟨userS, name', huserS, hname', hloc'⟩ := Step.mem_touches htouches
  obtain rfl : name = name' := Option.some.inj (hname.symm.trans hname')
  rw [resolve_join_plain _ hplain, hloc] at hloc'
  exact distinctDirs_of_run hpre _ _ _ _ huserT huserS hne (List.append_inj' hloc' rfl).1

/-- A step with plain names that registers one which differs from the others
before its last character. -/
theorem Step.isolating_of_plain {s : Step}
    (hdir : s.header.code = Constants.register → ∀ name ∈ asciiDecode s.payload,
      Plain name.dropLast ∧
        ∀ x ∈ s.before.names, Plain x.2.dropLast ∧ name.dropLast ≠ x.2.dropLast)
    (hfile : s.header.code = Constants.sendFile → ∀ name ∈ uploadName s.payload, Plain name) :
    s.Isolating env crypto where
  dir name hadmits v nameV hv := by
    obtain ⟨hplain, hothers⟩ := hdir hadmits.registers.code name hadmits.registers.name
    obtain ⟨hplainV, hne⟩ := hothers (v, nameV) hv
    exact fun hsame => hne ((userDir_eq_iff hplain hplainV).mp hsame)
  file _ name _ _ hname hopens :=
    descends_of_plain _ (hfile hopens.2.1 name hname)

/-- Two clients, `u` and `v`, upload a file `f` each. -/
def twoClients : List (Header × Bytes) :=
  [request (Uid.ofNat 0) 825 [0x75, 0x00], request (Uid.ofNat 0) 825 [0x76, 0x00],
    keyRequest (Uid.ofNat 1), keyRequest (Uid.ofNat 5),
    uploadRequest (Uid.ofNat 1) [0x66], uploadRequest (Uid.ofNat 5) [0x66]]

theorem twoClients_isolated :
    Isolated (.calm Uid.ofNat) toyCrypto
      (script (.calm Uid.ofNat) toyCrypto (.init .bare) twoClients)
      (handleAll (.calm Uid.ofNat) toyCrypto (.init .bare) twoClients) := by
  refine @clients_isolated _ _ .bare _ _ (run_script _ _ fun s hs => ?_)
  have hplain : ∀ s ∈ script (.calm Uid.ofNat) toyCrypto (.init .bare) twoClients,
      (s.header.code = Constants.register → ∀ name ∈ asciiDecode s.payload,
        Plain name.dropLast ∧
          ∀ x ∈ s.before.names, Plain x.2.dropLast ∧ name.dropLast ≠ x.2.dropLast) ∧
      (s.header.code = Constants.sendFile →
        s.payload = (uploadRequest (Uid.ofNat 1) [0x66]).2) := by
    decide +kernel
  obtain ⟨hdir, hpayload⟩ := hplain s hs
  have hname : uploadName (uploadRequest (Uid.ofNat 1) [0x66]).2 = some ['f'] :=
    uploadName_uploadRequest _ (by decide) (by decide) (by decide)
  refine Step.isolating_of_plain hdir fun hcode name hf => ?_
  rw [hpayload hcode, hname] at hf
  cases hf
  decide

/-! ## Two names for one directory -/

/-- `bob` registers with the usual terminator, and again with another one. -/
def twoBobs : List (Header × Bytes) :=
  [request (Uid.ofNat 0) 825 [0x62, 0x6f, 0x62, 0x00],
    request (Uid.ofNat 0) 825 [0x62, 0x6f, 0x62, 0x01]]

/-- **Both registrations are admitted, and both clients get the directory
`/b/bob`.** -/
theorem twoBobs_not_isolated :
    ∃ hist, Run (.calm Uid.ofNat) toyCrypto (fun _ => True) (.init .bare) hist
        (handleAll (.calm Uid.ofNat) toyCrypto (.init .bare) twoBobs) ∧
      ¬ Isolated (.calm Uid.ofNat) toyCrypto hist
        (handleAll (.calm Uid.ofNat) toyCrypto (.init .bare) twoBobs) := by
  refine ⟨_, run_script _ _ fun _ _ => trivial, fun h => ?_⟩
  have hfirst : (handleAll (.calm Uid.ofNat) toyCrypto (.init .bare) twoBobs).Registered
      (Uid.ofNat 1) ['b', 'o', 'b', '\x00'] := by
    show _ ∈ World.names _
    decide +kernel
  have hsecond : (handleAll (.calm Uid.ofNat) toyCrypto (.init .bare) twoBobs).Registered
      (Uid.ofNat 5) ['b', 'o', 'b', '\x01'] := by
    show _ ∈ World.names _
    decide +kernel
  exact h.dirs _ _ _ _ hfirst hsecond (by decide +kernel) (by decide +kernel)

end FileTransfer.Server
