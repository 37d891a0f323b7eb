import FileTransfer.Server.FilesTable
import FileTransfer.Server.KeyExchange

/-!
# A request touches its own rows

Every statement but the insert of a registration names the uid in the header, so
the rows of other clients stay as they are, whichever statements fail. In the own
rows each column has the codes that may write it.
-/

namespace FileTransfer.Server

open FileTransfer.Effect

/-! ## What may change -/

/-- The table `t'` that a request may make of the clients table `t`: rows of others
stay, no user name changes, and only a key exchange writes keys. A registration
may add one row, under a uuid that no row had. -/
structure ClientsFrame (header : Header) (t t' : Table ClientRow.uuid) : Prop where
  others : ∀ row ∈ t, row.uuid ≠ header.uid → row ∈ t'
  own : ∀ row ∈ t, ∃ row' ∈ t', row'.uuid = row.uuid ∧ row'.userName = row.userName ∧
    (header.code ≠ Constants.sPublicKey → row'.publicKey = row.publicKey) ∧
    (header.code ≠ Constants.sPublicKey → header.code ≠ Constants.reconnect →
      row'.aesKey = row.aesKey)
  added : (∀ row' ∈ t', ∃ row ∈ t, row.uuid = row'.uuid) ∨
    header.code = Constants.register ∧
      ∃ new, (∀ row ∈ t, row.uuid ≠ new.uuid) ∧ t'.rows = t.rows ++ [new]

/-- The table `t'` that a request may make of the files table `t`: rows of others
stay. Only a confirmation changes an own row, and only its `verified`; only an
upload adds one, and only an abort removes one. -/
structure FilesFrame (header : Header) (t t' : Table FileRow.uuid) : Prop where
  others : ∀ row, row.uuid ≠ header.uid → (row ∈ t' ↔ row ∈ t)
  own : ∀ row ∈ t, ∀ row' ∈ t', row'.uuid = row.uuid →
    row'.fileName = row.fileName ∧ row'.pathName = row.pathName ∧
      (header.code ≠ Constants.validCrc → row'.verified = row.verified)
  added : header.code ≠ Constants.sendFile → ∀ row' ∈ t', ∃ row ∈ t, row.uuid = row'.uuid
  removed : header.code ≠ Constants.exitCrc → ∀ row ∈ t, ∃ row' ∈ t', row'.uuid = row.uuid

section Tables

variable {header : Header}

/-! ## The clients table -/

theorem ClientsFrame.refl (t : Table ClientRow.uuid) : ClientsFrame header t t where
  others _ hrow _ := hrow
  own row hrow := ⟨row, hrow, rfl, rfl, fun _ => rfl, fun _ _ => rfl⟩
  added := .inl fun row hrow => ⟨row, hrow, rfl⟩

/-- A registration that works. -/
theorem clientsFrame_insert {t t' : Table ClientRow.uuid} {new : ClientRow}
    (hcode : header.code = Constants.register) (h : t.insert? new = some t') :
    ClientsFrame header t t' := by
  obtain ⟨hrows, hfresh⟩ := Table.insert?_eq_some h
  have hkept : ∀ row ∈ t, row ∈ t' := fun row hrow => (Table.mem_insert? h).mpr (.inl hrow)
  constructor
  case others => exact fun row hrow _ => hkept row hrow
  case own => exact fun row hrow => ⟨row, hkept row hrow, rfl, rfl, fun _ => rfl, fun _ _ => rfl⟩
  case added => exact .inr ⟨hcode, new, hfresh, hrows⟩

/-- An UPDATE of the own row, in a column that the code may write. -/
theorem ClientsFrame.setColumn {t t' : Table ClientRow.uuid} {field : ClientField}
    {data : field.Ty} (h : ClientsFrame header t t') (hcode : header.code ≠ Constants.register)
    (hname : field ≠ .userName)
    (hpublicKey : field = .publicKey → header.code = Constants.sPublicKey)
    (haesKey : field = .aesKey →
      header.code = Constants.sPublicKey ∨ header.code = Constants.reconnect) :
    ClientsFrame header t (setColumn t' header.uid field data) := by
  constructor
  case others =>
    intro row hrow hother
    refine Table.mem_update.mpr ⟨row, h.others row hrow hother, if_neg ?_⟩
    simpa using hother
  case own =>
    intro row hrow
    obtain ⟨row', hrow', huid, huser, hpublic, haes⟩ := h.own row hrow
    refine ⟨_, Table.mem_update.mpr ⟨row', hrow', rfl⟩, ?_⟩
    split
    · refine ⟨(row'.set_uuid field data).trans huid, ?_⟩
      cases field with
      | userName => exact absurd rfl hname
      | publicKey => exact ⟨huser, fun hnot => absurd (hpublicKey rfl) hnot, haes⟩
      | lastSeen => exact ⟨huser, hpublic, haes⟩
      | aesKey =>
        refine ⟨huser, hpublic, fun hnot hnot' => ?_⟩
        exact absurd (haesKey rfl) (not_or.mpr ⟨hnot, hnot'⟩)
    · exact ⟨huid, huser, hpublic, haes⟩
  case added =>
    refine .inl fun row' hrow' => ?_
    obtain ⟨row₁, hrow₁, rfl⟩ := Table.mem_update.mp hrow'
    obtain ⟨row, hrow, huid⟩ := (h.added.resolve_right fun hadded => hcode hadded.1) row₁ hrow₁
    refine ⟨row, hrow, ?_⟩
    split
    · exact huid.trans (row₁.set_uuid field data).symm
    · exact huid

/-! ## The files table -/

theorem FilesFrame.refl (t : Table FileRow.uuid) : FilesFrame header t t where
  others _ _ := Iff.rfl
  own row hrow row' hrow' huid := by
    rw [Table.eq_of_key_eq hrow' hrow huid]
    exact ⟨rfl, rfl, fun _ => rfl⟩
  added _ row hrow := ⟨row, hrow, rfl⟩
  removed _ row hrow := ⟨row, hrow, rfl⟩

/-- An upload offers a row of its own. -/
theorem FilesFrame.insertOrIgnore {t t' : Table FileRow.uuid} {new : FileRow}
    (h : FilesFrame header t t') (hcode : header.code = Constants.sendFile)
    (huid : new.uuid = header.uid) : FilesFrame header t (t'.insertOrIgnore new) := by
  have hkept : ∀ row ∈ t, ∃ row' ∈ t', row'.uuid = row.uuid :=
    h.removed (by rw [hcode]; decide)
  constructor
  case others =>
    intro row hother
    rw [Table.mem_insertOrIgnore, h.others row hother]
    refine or_iff_left ?_
    rintro ⟨rfl, -⟩
    exact hother huid
  case own =>
    intro row hrow row' hrow' hsame
    rcases Table.mem_insertOrIgnore.mp hrow' with hold | ⟨rfl, hfree⟩
    · exact h.own row hrow row' hold hsame
    · -- the row is not new: its uuid was taken
      obtain ⟨row₁, hrow₁, huid₁⟩ := hkept row hrow
      exact absurd (huid₁.trans hsame.symm) (hfree row₁ hrow₁)
  case added => exact fun hnot => absurd hcode hnot
  case removed =>
    intro _ row hrow
    obtain ⟨row', hrow', hsame⟩ := hkept row hrow
    exact ⟨row', Table.mem_insertOrIgnore.mpr (.inl hrow'), hsame⟩

/-- A confirmation marks rows of its own. -/
theorem FilesFrame.markVerified {t t' : Table FileRow.uuid} {name : Str}
    (h : FilesFrame header t t') (hcode : header.code = Constants.validCrc) :
    FilesFrame header t (markVerified t' header.uid name) := by
  have hnot : header.code ≠ Constants.sendFile ∧ header.code ≠ Constants.exitCrc := by
    rw [hcode]
    decide
  constructor
  case others =>
    intro row hother
    rw [mem_markVerified, ← h.others row hother]
    constructor
    · rintro ⟨row', hrow', rfl⟩
      split at hother
      · next hmarked => exact absurd hmarked.1 hother
      · next hmarked => rwa [if_neg hmarked]
    · intro hrow
      exact ⟨row, hrow, if_neg fun hmarked => hother hmarked.1⟩
  case own =>
    intro row hrow row' hrow' hsame
    obtain ⟨row₁, hrow₁, rfl⟩ := mem_markVerified.mp hrow'
    by_cases hmarked : row₁.uuid = header.uid ∧ (name = [] ∨ row₁.fileName = name)
    · rw [if_pos hmarked] at hsame ⊢
      obtain ⟨hname, hpath, -⟩ := h.own row hrow row₁ hrow₁ hsame
      exact ⟨hname, hpath, fun hother => absurd hcode hother⟩
    · rw [if_neg hmarked] at hsame ⊢
      exact h.own row hrow row₁ hrow₁ hsame
  case added =>
    intro _ row' hrow'
    obtain ⟨row₁, hrow₁, rfl⟩ := mem_markVerified.mp hrow'
    obtain ⟨row, hrow, huid⟩ := h.added hnot.1 row₁ hrow₁
    refine ⟨row, hrow, ?_⟩
    split
    · exact huid
    · exact huid
  case removed =>
    intro _ row hrow
    obtain ⟨row', hrow', huid⟩ := h.removed hnot.2 row hrow
    refine ⟨_, mem_markVerified.mpr ⟨row', hrow', rfl⟩, ?_⟩
    split
    · exact huid
    · exact huid

/-- An abort removes rows of its own. -/
theorem FilesFrame.dropUnverified {t t' : Table FileRow.uuid} {name : Str}
    (h : FilesFrame header t t') (hcode : header.code = Constants.exitCrc) :
    FilesFrame header t (dropUnverified t' header.uid name) := by
  constructor
  case others =>
    intro row hother
    rw [mem_dropUnverified, ← h.others row hother]
    exact and_iff_left fun hdropped => hother hdropped.2.1
  case own =>
    intro row hrow row' hrow' hsame
    exact h.own row hrow row' (mem_dropUnverified.mp hrow').1 hsame
  case added =>
    intro _ row' hrow'
    exact h.added (by rw [hcode]; decide) row' (mem_dropUnverified.mp hrow').1
  case removed => exact fun hnot => absurd hcode hnot

end Tables

/-! ## One request -/

namespace Step

variable {env : Env} {crypto : Crypto} {s : Step}

theorem clientsFrame_after :
    ClientsFrame s.header s.before.clients (s.after env crypto).clients := by
  by_cases hcode : s.header.code = Constants.register
  · rcases @clients_after_register env crypto s hcode with
      hsame | ⟨uid, name, now, -, hinsert⟩
    · rw [hsame]
      exact .refl _
    · exact clientsFrame_insert hcode hinsert
  · refine invariant (I := fun w => ClientsFrame s.header s.before.clients w.clients)
      (fun o w ho hw => ?_) (.refl _)
    rcases clients_exec o w with hsame | ⟨row, rfl⟩ | ⟨field, data, uid, rfl⟩
    · rw [hsame]
      exact hw
    · cases ho with
      | insertClient hregister => exact absurd hregister hcode
    · by_cases hquery : env.queryFails w.tick
      · simp only [exec, if_pos hquery]
        exact hw
      · rw [exec_updateClient (by simpa using hquery)]
        cases ho with
        | setPublicKey key hkey =>
          exact hw.setColumn hcode (by decide) (fun _ => hkey) (by simp)
        | setAesKey key hkey =>
          exact hw.setColumn hcode (by decide) (by simp) fun _ => hkey
        | setLastSeen now hkey =>
          exact hw.setColumn hcode (by decide) (by simp) (by simp)

theorem filesFrame_after :
    FilesFrame s.header s.before.files (s.after env crypto).files := by
  refine files_invariant (J := FilesFrame s.header s.before.files) (.refl _) ?_ ?_ ?_
  · intro hcode files user name _ _ h
    exact h.insertOrIgnore hcode rfl
  · intro hcode files name _ h
    exact h.markVerified hcode
  · intro hcode files name _ h
    exact h.dropUnverified hcode

/-- **A request touches its own rows only**, in every state and however it ends;
and in these rows it writes what its code may write. -/
theorem touches_own_rows (env : Env) (crypto : Crypto) (s : Step) :
    ClientsFrame s.header s.before.clients (s.after env crypto).clients ∧
      FilesFrame s.header s.before.files (s.after env crypto).files :=
  ⟨clientsFrame_after, filesFrame_after⟩

end Step

end FileTransfer.Server
