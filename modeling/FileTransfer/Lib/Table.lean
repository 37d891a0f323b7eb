import Mathlib

/-!
# Tables with a primary key

A table is a list of rows in insertion order together with the proof that no
two rows share a key, so a table that violates its primary key cannot be
built. Every statement that changes a table is an operation here; each one
carries the argument that the key stays unique.
-/

namespace FileTransfer

/-- Rows of type `ρ`, no two of which agree on `key`. -/
structure Table {ρ κ : Type} (key : ρ → κ) where
  rows : List ρ
  keys_nodup : (rows.map key).Nodup

namespace Table

variable {ρ κ : Type} {key : ρ → κ}

instance : Membership ρ (Table key) := ⟨fun t r => r ∈ t.rows⟩

@[simp] theorem mem_rows {t : Table key} {r : ρ} : r ∈ t.rows ↔ r ∈ t := Iff.rfl

/-- The table without rows. -/
def empty : Table key := ⟨[], List.nodup_nil⟩

/-- `SELECT ... WHERE p`, first row. -/
def find? (t : Table key) (p : ρ → Bool) : Option ρ := t.rows.find? p

/-- The number of rows a statement with `WHERE p` concerns. -/
def count (t : Table key) (p : ρ → Bool) : Nat := t.rows.countP p

/-- `UPDATE ... SET f WHERE p` for an assignment that leaves the key alone. -/
def update (t : Table key) (p : ρ → Bool) (f : ρ → ρ) (hf : ∀ r, key (f r) = key r) :
    Table key where
  rows := t.rows.map fun r => if p r then f r else r
  keys_nodup := by
    have hkeys : (t.rows.map fun r => if p r then f r else r).map key = t.rows.map key := by
      simp only [List.map_map]
      refine List.map_congr_left fun r _ => ?_
      simp only [Function.comp]
      split <;> simp [hf]
    rw [hkeys]
    exact t.keys_nodup

/-- `DELETE ... WHERE p`. -/
def delete (t : Table key) (p : ρ → Bool) : Table key where
  rows := t.rows.filter fun r => !p r
  keys_nodup := t.keys_nodup.sublist (List.filter_sublist.map key)

variable [DecidableEq κ]

/-- `INSERT`; `none` when the key is taken. -/
def insert? (t : Table key) (r : ρ) : Option (Table key) :=
  if h : key r ∈ t.rows.map key then none
  else some
    { rows := t.rows ++ [r]
      keys_nodup := by
        rw [List.map_append, List.nodup_append]
        refine ⟨t.keys_nodup, by simp, ?_⟩
        intro k hk k' hk' heq
        simp only [List.map_cons, List.map_nil, List.mem_singleton] at hk'
        exact h (hk' ▸ heq ▸ hk) }

/-- `INSERT OR IGNORE`. -/
def insertOrIgnore (t : Table key) (r : ρ) : Table key := (t.insert? r).getD t

omit [DecidableEq κ] in
/-- A primary key names at most one row. -/
theorem eq_of_key_eq {t : Table key} {r r' : ρ} (h : r ∈ t) (h' : r' ∈ t)
    (hk : key r = key r') : r = r' :=
  List.inj_on_of_nodup_map t.keys_nodup h h' hk

omit [DecidableEq κ] in
theorem mem_update {t : Table key} {p : ρ → Bool} {f : ρ → ρ}
    {hf : ∀ r, key (f r) = key r} {r : ρ} :
    r ∈ t.update p f hf ↔ ∃ r₀ ∈ t, (if p r₀ then f r₀ else r₀) = r :=
  List.mem_map

omit [DecidableEq κ] in
/-- An UPDATE that the condition does not see changes the row that is found, and
not which row that is. -/
theorem find?_update {t : Table key} {p q : ρ → Bool} {f : ρ → ρ}
    {hf : ∀ r, key (f r) = key r} (hp : ∀ r, p (f r) = p r) :
    (t.update q f hf).find? p = (t.find? p).map fun r => if q r then f r else r := by
  have hsame : p ∘ (fun r => if q r then f r else r) = p := by
    funext r
    simp only [Function.comp]
    split
    · exact hp r
    · rfl
  simp only [find?, update, List.find?_map, hsame]

omit [DecidableEq κ] in
@[simp] theorem mem_delete {t : Table key} {p : ρ → Bool} {r : ρ} :
    r ∈ t.delete p ↔ r ∈ t ∧ p r = false := by
  simp only [← mem_rows, delete, List.mem_filter, Bool.not_eq_true']

omit [DecidableEq κ] in
theorem mem_of_find? {t : Table key} {p : ρ → Bool} {r : ρ} (h : t.find? p = some r) :
    r ∈ t ∧ p r = true :=
  ⟨List.mem_of_find?_eq_some h, List.find?_some h⟩

omit [DecidableEq κ] in
theorem find?_eq_none {t : Table key} {p : ρ → Bool} :
    t.find? p = none ↔ ∀ r ∈ t, p r = false := by
  simp [find?]

/-- Looking a row up by its key finds it. -/
theorem find?_key {t : Table key} {r : ρ} (h : r ∈ t) :
    t.find? (fun r' => decide (key r' = key r)) = some r := by
  cases hfind : t.find? (fun r' => decide (key r' = key r)) with
  | none => simpa using find?_eq_none.mp hfind r h
  | some r' =>
    obtain ⟨hmem, hkey⟩ := mem_of_find? hfind
    rw [eq_of_key_eq hmem h (of_decide_eq_true hkey)]

theorem insert?_eq_none {t : Table key} {r : ρ} :
    t.insert? r = none ↔ ∃ r' ∈ t, key r' = key r := by
  simp [insert?]

/-- A successful insert appends the row, and its key was free. -/
theorem insert?_eq_some {t t' : Table key} {r : ρ} (h : t.insert? r = some t') :
    t'.rows = t.rows ++ [r] ∧ ∀ r' ∈ t, key r' ≠ key r := by
  simp only [insert?] at h
  split at h
  · cases h
  · next hfree =>
    cases h
    refine ⟨rfl, fun r' hr' heq => hfree ?_⟩
    exact heq ▸ List.mem_map_of_mem hr'

theorem mem_insert? {t t' : Table key} {r r' : ρ} (h : t.insert? r = some t') :
    r' ∈ t' ↔ r' ∈ t ∨ r' = r := by
  rw [← mem_rows, (insert?_eq_some h).1]
  simp

/-- An `INSERT OR IGNORE` changes nothing exactly if the key is taken. -/
theorem insertOrIgnore_eq_self {t : Table key} {r : ρ} :
    t.insertOrIgnore r = t ↔ ∃ r' ∈ t, key r' = key r := by
  rw [← insert?_eq_none, insertOrIgnore]
  cases h : t.insert? r with
  | none => exact iff_of_true rfl rfl
  | some t' =>
    refine iff_of_false (fun hsame => ?_) (by simp)
    obtain ⟨hrows, -⟩ := insert?_eq_some h
    have hlength := congrArg List.length hrows
    rw [Option.getD_some] at hsame
    rw [hsame, List.length_append] at hlength
    simp at hlength

/-- `INSERT OR IGNORE` appends the row when the key is free and changes nothing
otherwise. -/
theorem mem_insertOrIgnore {t : Table key} {r r' : ρ} :
    r' ∈ t.insertOrIgnore r ↔ r' ∈ t ∨ (r' = r ∧ ∀ r₀ ∈ t, key r₀ ≠ key r) := by
  unfold insertOrIgnore
  cases h : t.insert? r with
  | none =>
    obtain ⟨r₀, hr₀, hk⟩ := insert?_eq_none.mp h
    constructor
    · exact .inl
    · rintro (hmem | ⟨-, hfree⟩)
      · exact hmem
      · exact absurd hk (hfree r₀ hr₀)
  | some t' =>
    have hfree := (insert?_eq_some h).2
    simp only [Option.getD_some, mem_insert? h]
    exact or_congr_right (and_iff_left hfree).symm

/-! ## Looking up a key -/

theorem find?_key_eq_some {t : Table key} {k : κ} {r : ρ} :
    t.find? (fun r' => decide (key r' = k)) = some r ↔ r ∈ t ∧ key r = k := by
  constructor
  · intro h
    obtain ⟨hmem, hkey⟩ := mem_of_find? h
    exact ⟨hmem, of_decide_eq_true hkey⟩
  · intro h
    obtain ⟨hmem, rfl⟩ := h
    exact find?_key hmem

theorem find?_delete {t : Table key} {q : ρ → Bool} {k : κ} :
    (t.delete q).find? (fun r => decide (key r = k)) =
      (t.find? fun r => decide (key r = k)).filter fun r => !q r := by
  ext r
  simp only [find?_key_eq_some, mem_delete, Option.filter_eq_some_iff, Bool.not_eq_true']
  exact ⟨fun h => ⟨⟨h.1.1, h.2⟩, h.1.2⟩, fun h => ⟨⟨h.1.1, h.2⟩, h.1.2⟩⟩

/-- An `INSERT OR IGNORE` leaves the row that has the key, or becomes it. -/
theorem find?_insertOrIgnore {t : Table key} {new : ρ} {k : κ} :
    (t.insertOrIgnore new).find? (fun r => decide (key r = k)) =
      if key new = k then some ((t.find? fun r => decide (key r = k)).getD new)
      else t.find? fun r => decide (key r = k) := by
  by_cases hk : key new = k
  · rw [if_pos hk, find?_key_eq_some, mem_insertOrIgnore]
    subst hk
    cases hfind : t.find? fun r => decide (key r = key new) with
    | none =>
      have hfree := find?_eq_none.mp hfind
      exact ⟨.inr ⟨rfl, fun r hr => of_decide_eq_false (hfree r hr)⟩, rfl⟩
    | some r =>
      obtain ⟨hmem, hkey⟩ := find?_key_eq_some.mp hfind
      exact ⟨.inl hmem, hkey⟩
  · rw [if_neg hk]
    ext r
    rw [find?_key_eq_some, find?_key_eq_some, mem_insertOrIgnore]
    constructor
    · intro h
      obtain ⟨hmem | hnew, hkey⟩ := h
      · exact ⟨hmem, hkey⟩
      · rw [hnew.1] at hkey
        exact absurd hkey hk
    · exact fun h => ⟨.inl h.1, h.2⟩

/-! ## Two tables that differ by a rewriting of rows -/

/-- `t'` is `t` with every row rewritten by `f`. -/
def Rewritten (f : ρ → ρ) (t t' : Table key) : Prop := t'.rows = t.rows.map f

namespace Rewritten

variable {f : ρ → ρ} {t t' : Table key}

omit [DecidableEq κ] in
/-- A condition that does not see the rewriting finds the same row. -/
theorem find? (h : Rewritten f t t') {p : ρ → Bool} (hp : ∀ r ∈ t, p (f r) = p r) :
    t'.find? p = (t.find? p).map f := by
  simp only [Table.find?]
  rw [h, List.find?_map]
  congr 1
  exact List.find?_congr fun r hr => hp r hr

omit [DecidableEq κ] in
theorem count (h : Rewritten f t t') {p : ρ → Bool} (hp : ∀ r, p (f r) = p r) :
    t'.count p = t.count p := by
  simp only [Table.count]
  rw [h, List.countP_map]
  exact List.countP_congr fun r _ => by simp [Function.comp, hp]

omit [DecidableEq κ] in
theorem update (h : Rewritten f t t') {p : ρ → Bool} {g : ρ → ρ} (hg : ∀ r, key (g r) = key r)
    (hp : ∀ r, p (f r) = p r) (hfg : ∀ r, g (f r) = f (g r)) :
    Rewritten f (t.update p g hg) (t'.update p g hg) := by
  simp only [Rewritten, Table.update]
  rw [h, List.map_map, List.map_map]
  refine List.map_congr_left fun r _ => ?_
  simp only [Function.comp, hp]
  split
  · exact hfg r
  · rfl

omit [DecidableEq κ] in
theorem delete (h : Rewritten f t t') {p : ρ → Bool} (hp : ∀ r, p (f r) = p r) :
    Rewritten f (t.delete p) (t'.delete p) := by
  simp only [Rewritten, Table.delete]
  rw [h, List.filter_map]
  congr 1
  exact List.filter_congr fun r _ => by simp [Function.comp, hp]

/-- Inserting a row whose key the rewriting neither moves nor moves onto succeeds
in both tables or in none. -/
theorem insert? (h : Rewritten f t t') {r : ρ} (hr : f r = r)
    (hkey : ∀ r', key (f r') = key r ↔ key r' = key r) :
    (t.insert? r = none ∧ t'.insert? r = none) ∨
      ∃ t₁ t₁', t.insert? r = some t₁ ∧ t'.insert? r = some t₁' ∧ Rewritten f t₁ t₁' := by
  have hmem : (∃ r' ∈ t', key r' = key r) ↔ ∃ r' ∈ t, key r' = key r := by
    simp only [← mem_rows]
    rw [h]
    simp [hkey]
  cases ht : t.insert? r with
  | none => exact .inl ⟨rfl, insert?_eq_none.mpr (hmem.mpr (insert?_eq_none.mp ht))⟩
  | some t₁ =>
    cases ht' : t'.insert? r with
    | none =>
      rw [insert?_eq_none.mpr (hmem.mp (insert?_eq_none.mp ht'))] at ht
      cases ht
    | some t₁' =>
      refine .inr ⟨t₁, t₁', rfl, rfl, ?_⟩
      rw [Rewritten, (insert?_eq_some ht).1, (insert?_eq_some ht').1, h, List.map_append]
      simp [hr]

theorem insertOrIgnore (h : Rewritten f t t') {r : ρ} (hr : f r = r)
    (hkey : ∀ r', key (f r') = key r ↔ key r' = key r) :
    Rewritten f (t.insertOrIgnore r) (t'.insertOrIgnore r) := by
  unfold Table.insertOrIgnore
  rcases h.insert? hr hkey with ⟨ht, ht'⟩ | ⟨t₁, t₁', ht, ht', h₁⟩
  · rw [ht, ht']
    exact h
  · rw [ht, ht']
    exact h₁

end Rewritten

end Table

end FileTransfer
