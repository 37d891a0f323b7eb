import Mathlib

/-!
# Runs that remember their history

An event is one thing that happened, together with the state it met and the
state it left. A `History.Run ok s₀ es s` leads from `s₀` to `s` by the events
`es`, oldest first, all of which meet `ok`; with `ok := fun _ => True` the last
index is just reachable. Conditions on the past, such as "approved and not
written since", are statements about `es`.
-/

namespace FileTransfer.History

variable {E σ : Type} (before after : E → σ)

inductive Run (ok : E → Prop) (s₀ : σ) : List E → σ → Prop where
  | start : Run ok s₀ [] s₀
  | event {es : List E} {e : E} : Run ok s₀ es (before e) → ok e →
      Run ok s₀ (es ++ [e]) (after e)

namespace Run

variable {before after} {ok : E → Prop} {s₀ s s' : σ} {es : List E}

/-- **The invariant rule**: what every event preserves holds at the end. -/
theorem invariant {I : σ → Prop} (h : Run before after ok s₀ es s) (hs₀ : I s₀)
    (hstep : ∀ e, ok e → I (before e) → I (after e)) : I s := by
  induction h with
  | start => exact hs₀
  | event _ he ih => exact hstep _ he ih

/-- A run that is not over yet split at its last event. -/
theorem of_concat {e : E} (h : Run before after ok s₀ (es ++ [e]) s) :
    Run before after ok s₀ es (before e) ∧ ok e ∧ s = after e := by
  generalize hes : es ++ [e] = es' at h
  cases h with
  | start => simp at hes
  | event hrun he =>
    obtain ⟨rfl, rfl⟩ : es = _ ∧ e = _ := by simpa using hes
    exact ⟨hrun, he, rfl⟩

theorem of_append {es' : List E} (h : Run before after ok s₀ (es ++ es') s) :
    ∃ s₁, Run before after ok s₀ es s₁ ∧ Run before after ok s₁ es' s := by
  induction es' using List.reverseRecOn generalizing s with
  | nil => exact ⟨s, by simpa using h, .start⟩
  | append_singleton es' e ih =>
    rw [← List.append_assoc] at h
    obtain ⟨hrun, he, rfl⟩ := h.of_concat
    obtain ⟨s₁, h₁, h₂⟩ := ih hrun
    exact ⟨s₁, h₁, .event h₂ he⟩

/-- A run split at any event: the run that led to it, and the rest. -/
theorem of_split {pre post : List E} {e : E} (h : Run before after ok s₀ (pre ++ e :: post) s) :
    Run before after ok s₀ pre (before e) ∧ ok e ∧ Run before after ok (after e) post s := by
  rw [← List.singleton_append, ← List.append_assoc] at h
  obtain ⟨s₁, hmid, hpost⟩ := h.of_append
  obtain ⟨hpre, he, rfl⟩ := hmid.of_concat
  exact ⟨hpre, he, hpost⟩

/-- Every event was allowed, and happened in a state that a run led to. -/
theorem of_mem {e : E} (h : Run before after ok s₀ es s) (he : e ∈ es) :
    ok e ∧ ∃ pre, Run before after ok s₀ pre (before e) := by
  induction h with
  | start => cases he
  | event hrun hok ih =>
    rcases List.mem_append.mp he with he | he
    · exact ih he
    · obtain rfl := List.mem_singleton.mp he
      exact ⟨hok, _, hrun⟩

/-- **The simulation rule**: when every event is matched by a step of an abstract machine,
so is the run, by the steps in their order. -/
theorem simulates {τ ε : Type} {Tells : E → ε → Prop} {apply : τ → ε → τ} {R : σ → τ → Prop}
    {t₀ : τ} (h : Run before after ok s₀ es s) (hs₀ : R s₀ t₀)
    (hstep : ∀ e t, ok e → R (before e) t → ∃ a, Tells e a ∧ R (after e) (apply t a)) :
    ∃ abstract, List.Forall₂ Tells es abstract ∧ R s (abstract.foldl apply t₀) := by
  induction h with
  | start => exact ⟨[], .nil, hs₀⟩
  | @event es e _ he ih =>
    obtain ⟨abstract, htold, hrel⟩ := ih
    obtain ⟨a, ha, hrel'⟩ := hstep e _ he hrel
    refine ⟨abstract ++ [a], List.rel_append htold (.cons ha .nil), ?_⟩
    rw [List.foldl_concat]
    exact hrel'

end Run

/-! ## Logs

A log is a list of entries, oldest first. -/

section Log

variable {α : Type} {P : List α → α → Prop} {log tail : List α} {x : α}

/-- Every entry of the log relates to the entries before it. -/
def EachAfter (P : List α → α → Prop) (log : List α) : Prop :=
  ∀ past x rest, log = past ++ x :: rest → P past x

theorem eachAfter_nil : EachAfter P [] := by
  intro past x rest h
  simp at h

theorem EachAfter.of_append (h : EachAfter P (log ++ tail)) : EachAfter P log := by
  intro past x rest heq
  exact h past x (rest ++ tail) (by rw [heq, List.append_assoc, List.cons_append])

@[simp] theorem eachAfter_concat :
    EachAfter P (log ++ [x]) ↔ EachAfter P log ∧ P log x := by
  refine ⟨fun h => ⟨h.of_append, h log x [] rfl⟩, fun ⟨hlog, hx⟩ past y rest heq => ?_⟩
  rcases List.eq_nil_or_concat rest with rfl | ⟨rest, z, rfl⟩
  · obtain ⟨rfl, rfl⟩ : log = past ∧ x = y := by simpa using heq
    exact hx
  · have hsplit : log ++ [x] = (past ++ y :: rest) ++ [z] := by simpa using heq
    obtain ⟨rfl, -⟩ := List.append_inj' hsplit rfl
    exact hlog past y rest rfl

/-- A log split at the entry at an index. -/
theorem eq_of_getElem? {i : Nat} (h : log[i]? = some x) :
    log = log.take i ++ x :: log.drop (i + 1) := by
  obtain ⟨hi, hx⟩ := List.getElem?_eq_some_iff.mp h
  calc log = log.take i ++ log.drop i := (List.take_append_drop i log).symm
    _ = log.take i ++ x :: log.drop (i + 1) := by
      rw [← hx, List.cons_getElem_drop_succ]

/-- What relates the entry at an index to the entries before it. -/
theorem EachAfter.of_getElem? {i : Nat} (h : EachAfter P log) (hi : log[i]? = some x) :
    P (log.take i) x :=
  h _ _ _ (eq_of_getElem? hi)

/-- There is an entry with `P`, and none with `Q` since. -/
def Since (P Q : α → Prop) (log : List α) : Prop :=
  ∃ past x rest, log = past ++ x :: rest ∧ P x ∧ ∀ y ∈ rest, ¬ Q y

theorem not_since_nil {P Q : α → Prop} : ¬ Since P Q [] := by
  intro h
  obtain ⟨past, x, rest, heq, -⟩ := h
  simp at heq

theorem since_concat {P Q : α → Prop} :
    Since P Q (log ++ [x]) ↔ P x ∨ ¬ Q x ∧ Since P Q log := by
  constructor
  · intro h
    obtain ⟨past, y, rest, heq, hy, hrest⟩ := h
    rcases rest.eq_nil_or_concat with rfl | ⟨rest, z, rfl⟩
    · obtain ⟨-, rfl⟩ : log = past ∧ x = y := by simpa using heq
      exact .inl hy
    · have hsplit : log ++ [x] = (past ++ y :: rest) ++ [z] := by simpa using heq
      obtain ⟨rfl, hlast⟩ := List.append_inj' hsplit rfl
      obtain rfl : x = z := by simpa using hlast
      refine .inr ⟨hrest x (by simp), past, y, rest, rfl, hy, fun y' hy' => ?_⟩
      exact hrest y' (by simp [hy'])
  · intro h
    rcases h with hx | ⟨hx, past, y, rest, rfl, hy, hrest⟩
    · exact ⟨log, x, [], rfl, hx, fun y hy => by cases hy⟩
    · refine ⟨past, y, rest ++ [x], by simp, hy, fun y' hy' => ?_⟩
      rcases List.mem_append.mp hy' with hy' | hy'
      · exact hrest y' hy'
      · rw [List.mem_singleton.mp hy']
        exact hx

end Log

end FileTransfer.History
