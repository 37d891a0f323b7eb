import FileTransfer.Lib.Program

/-!
# Threads that interleave at operations

A pool runs any number of threads over one shared state. A thread takes up a
job, runs the program of that job one operation at a time, and answers. Between
two operations of one thread any other thread may move, so an operation is the
critical section and nothing larger is.

`Run` is a run all of whose steps meet a side condition `ok`; with
`ok := fun _ _ => True` it is plain reachability. `Run.invariant` is the rule
the safety proofs use, and `Run.invariant_of_uses` the one that needs no more
than a list of the operations each program can perform. `Once` counts answers:
an answer is decided when a thread has nothing else left to do, and given one
step later.
-/

namespace FileTransfer.Effect

/-- The program that has only its result left to give. -/
def Program.ofResult {S : Signature} {ε α : Type} : Except ε α → Program S ε α
  | .ok a => .ret a
  | .error e => .throw e

theorem Program.ofResult_inj {S : Signature} {ε α : Type} {r r' : Except ε α}
    (h : (Program.ofResult r : Program S ε α) = Program.ofResult r') : r = r' := by
  cases r <;> cases r' <;> cases h <;> rfl

theorem Program.perform_ne_ofResult {S : Signature} {ε α : Type} {o : S.Op}
    {k : Except ε (S.Reply o) → Program S ε α} {r : Except ε α} :
    Program.perform o k ≠ Program.ofResult r := by
  cases r <;> exact fun h => by cases h

/-- The state of a pool: the shared state, the job and the rest of the program
of every busy thread, and the answers given so far, oldest first. -/
structure Pool (S : Signature) (ε α J σ : Type) where
  shared : σ
  threads : Nat → Option (J × Program S ε α)
  answered : List (J × Except ε α)

/-- What the scheduler may do: an idle thread takes a job, or a busy thread
takes its next step. -/
inductive Action (J : Type) where
  | start (t : Nat) (j : J)
  | advance (t : Nat)

namespace Pool

variable {S : Signature} {ε α J σ : Type}
variable (exec : Handler S ε σ) (body : J → Program S ε α)

/-- No thread is busy and nothing has been answered. -/
def initial (s : σ) : Pool S ε α J σ := ⟨s, fun _ => none, []⟩

/-- One scheduled step; `none` when the scheduler asks for what cannot
happen. -/
def step (c : Pool S ε α J σ) : Action J → Option (Pool S ε α J σ)
  | .start t j =>
    match c.threads t with
    | none => some { c with threads := Function.update c.threads t (some (j, body j)) }
    | some _ => none
  | .advance t =>
    match c.threads t with
    | none => none
    | some (j, .ret a) =>
      some { c with
        threads := Function.update c.threads t none
        answered := c.answered ++ [(j, .ok a)] }
    | some (j, .throw e) =>
      some { c with
        threads := Function.update c.threads t none
        answered := c.answered ++ [(j, .error e)] }
    | some (j, .perform o k) =>
      some { c with
        shared := (exec o c.shared).2
        threads := Function.update c.threads t (some (j, k (exec o c.shared).1)) }

/-- Everything a step can do. -/
theorem step_cases {c c' : Pool S ε α J σ} {a : Action J}
    (h : step exec body c a = some c') :
    (∃ t j, a = .start t j ∧ c.threads t = none ∧
      c' = { c with threads := Function.update c.threads t (some (j, body j)) }) ∨
    (∃ t j r, a = .advance t ∧
      c.threads t = some (j, .ofResult r) ∧
      c' = { c with
        threads := Function.update c.threads t none
        answered := c.answered ++ [(j, r)] }) ∨
    (∃ t j o k, a = .advance t ∧ c.threads t = some (j, .perform o k) ∧
      c' = { c with
        shared := (exec o c.shared).2
        threads := Function.update c.threads t (some (j, k (exec o c.shared).1)) }) := by
  cases a with
  | start t j =>
    simp only [step] at h
    split at h
    · next hidle => cases h; exact .inl ⟨t, j, rfl, hidle, rfl⟩
    · cases h
  | advance t =>
    simp only [step] at h
    split at h
    · cases h
    · next j a ht => cases h; exact .inr (.inl ⟨t, j, .ok a, rfl, ht, rfl⟩)
    · next j e ht => cases h; exact .inr (.inl ⟨t, j, .error e, rfl, ht, rfl⟩)
    · next j o k ht => cases h; exact .inr (.inr ⟨t, j, o, k, rfl, ht, rfl⟩)

/-- Where a thread is after another one moved, or itself. -/
theorem threads_update {threads : Nat → Option (J × Program S ε α)}
    {moved x : Option (J × Program S ε α)} {t t' : Nat} :
    Function.update threads t moved t' = x ↔
      t' = t ∧ moved = x ∨ t' ≠ t ∧ threads t' = x := by
  by_cases ht : t' = t
  · subst ht
    simp
  · simp [ht]

/-- The pools a scheduler can reach by steps that all meet `ok`. -/
inductive Run (ok : Pool S ε α J σ → Action J → Prop) (c₀ : Pool S ε α J σ) :
    Pool S ε α J σ → Prop where
  | refl : Run ok c₀ c₀
  | tail {c c' : Pool S ε α J σ} {a : Action J} : Run ok c₀ c → ok c a →
      step exec body c a = some c' → Run ok c₀ c'

/-- **The invariant rule** for interleavings. -/
theorem Run.invariant {ok : Pool S ε α J σ → Action J → Prop}
    {I : Pool S ε α J σ → Prop} {c₀ c : Pool S ε α J σ}
    (hrun : Run exec body ok c₀ c) (hinit : I c₀)
    (hstep : ∀ c c' a, I c → ok c a → step exec body c a = some c' → I c') : I c := by
  induction hrun with
  | refl => exact hinit
  | tail _ hok hs ih => exact hstep _ _ _ ih hok hs

/-- A run keeps to every weaker condition. -/
theorem Run.mono {ok ok' : Pool S ε α J σ → Action J → Prop} {c₀ c : Pool S ε α J σ}
    (hrun : Run exec body ok c₀ c) (h : ∀ c a, ok c a → ok' c a) : Run exec body ok' c₀ c := by
  induction hrun with
  | refl => exact .refl
  | tail _ hok hstep ih => exact .tail ih (h _ _ hok) hstep

/-! ## The jobs of a run -/

/-- Some thread has taken the job. -/
def Took (c : Pool S ε α J σ) (j : J) : Prop :=
  (∃ t p, c.threads t = some (j, p)) ∨ ∃ r, (j, r) ∈ c.answered

/-- A job that was taken is in progress or answered from then on. -/
theorem Took.step {c c' : Pool S ε α J σ} {a : Action J} {j : J} (h : c.Took j)
    (hstep : step exec body c a = some c') : c'.Took j := by
  rcases step_cases exec body hstep with
    ⟨t, j', rfl, hidle, rfl⟩ | ⟨t, j', r, rfl, ht, rfl⟩ | ⟨t, j', o, k, rfl, ht, rfl⟩
  · -- a thread that starts was idle, so it is not the one that has the job
    rcases h with ⟨t', p, ht'⟩ | h
    · refine .inl ⟨t', p, ?_⟩
      have hne : t' ≠ t := fun heq => by rw [heq, hidle] at ht'; cases ht'
      simpa [hne] using ht'
    · exact .inr h
  · rcases h with ⟨t', p, ht'⟩ | ⟨r', h⟩
    · -- the thread that answers may be the one that has the job
      by_cases hne : t' = t
      · subst hne
        cases ht'.symm.trans ht
        exact .inr ⟨r, List.mem_append_right _ (List.mem_singleton.mpr rfl)⟩
      · exact .inl ⟨t', p, by simpa [hne] using ht'⟩
    · exact .inr ⟨r', List.mem_append_left _ h⟩
  · rcases h with ⟨t', p, ht'⟩ | h
    · by_cases hne : t' = t
      · subst hne
        cases ht'.symm.trans ht
        exact .inl ⟨t', k (exec o c.shared).1, by simp⟩
      · exact .inl ⟨t', p, by simpa [hne] using ht'⟩
    · exact .inr h

/-- What holds of the jobs a run has taken in the end can be asked for at every
step of it. -/
theorem Run.took {ok : Pool S ε α J σ → Action J → Prop} {c₀ c d : Pool S ε α J σ}
    (hrun : Run exec body ok c₀ c) (hd : ∀ j, c.Took j → d.Took j) :
    Run exec body (fun c₁ a => ok c₁ a ∧ (∀ j, c₁.Took j → d.Took j) ∧
      ∀ t j, a = .start t j → d.Took j) c₀ c := by
  induction hrun with
  | refl => exact .refl
  | @tail c c' a _ hok hstep ih =>
    have hsofar : ∀ j, c.Took j → d.Took j := fun j hj => hd j (hj.step exec body hstep)
    refine .tail (ih hsofar) ⟨hok, hsofar, fun t j hstart => hd j ?_⟩ hstep
    subst hstart
    rcases step_cases exec body hstep with
      ⟨t, j, heq, -, rfl⟩ | ⟨t, j, r, heq, -⟩ | ⟨t, j, o, k, heq, -⟩
    · cases heq
      exact .inl ⟨t, body j, by simp⟩
    · cases heq
    · cases heq

/-! ## What threads may do in the meantime -/

section Uses

variable {κ : Type} [Preorder κ] (known : σ → κ) (allowed : J → κ → S.Op → Prop)
  (possible : κ → (o : S.Op) → Except ε (S.Reply o) → Prop)

/-- The rest of every program keeps to the list of a state that knows at least as
much as this one. -/
def Keeps (c : Pool S ε α J σ) : Prop :=
  ∀ t j p, c.threads t = some (j, p) → ∀ k, known c.shared ≤ k →
    p.Uses (allowed j k) (possible k) fun _ => True

/-- **The invariant rule for listed operations**: what the operations of every
program preserve, any interleaving preserves. What a thread has read stays true
while others move, because states come to know more and never less. -/
theorem Run.invariant_of_uses {ok : Pool S ε α J σ → Action J → Prop} {I : σ → Prop}
    {c₀ c : Pool S ε α J σ}
    (hbody : ∀ j k, (body j).Uses (allowed j k) (possible k) fun _ => True)
    (hmono : ∀ k k' o r, k ≤ k' → possible k o r → possible k' o r)
    (hstep : ∀ j o s, allowed j (known s) o → I s →
      possible (known s) o (exec o s).1 ∧ known s ≤ known (exec o s).2 ∧ I (exec o s).2)
    (hrun : Run exec body ok c₀ c) (hidle : ∀ t, c₀.threads t = none) (hI : I c₀.shared) :
    I c.shared := by
  have hkeeps : Keeps known allowed possible c ∧ I c.shared := by
    refine hrun.invariant exec body
      (I := fun c => Keeps known allowed possible c ∧ I c.shared) ⟨?_, hI⟩ ?_
    · intro t j p ht
      rw [hidle t] at ht
      cases ht
    · intro c c' a hc _ hs
      obtain ⟨hkeeps, hI⟩ := hc
      rcases step_cases exec body hs with
        ⟨t, j, rfl, -, rfl⟩ | ⟨t, j, r, rfl, -, rfl⟩ | ⟨t, j, o, k, rfl, ht, rfl⟩
      · refine ⟨fun t' j' p' ht' k hk => ?_, hI⟩
        rcases threads_update.mp ht' with ⟨-, hmoved⟩ | ⟨-, ht'⟩
        · cases hmoved
          exact hbody j k
        · exact hkeeps t' j' p' ht' k hk
      · refine ⟨fun t' j' p' ht' k hk => ?_, hI⟩
        rcases threads_update.mp ht' with ⟨-, hmoved⟩ | ⟨-, ht'⟩
        · cases hmoved
        · exact hkeeps t' j' p' ht' k hk
      · obtain ⟨hreply, hgrows, hI'⟩ := hstep j o c.shared (hkeeps t j _ ht _ le_rfl).1 hI
        refine ⟨fun t' j' p' ht' know hknow => ?_, hI'⟩
        have hlater : known c.shared ≤ know := hgrows.trans hknow
        rcases threads_update.mp ht' with ⟨-, hmoved⟩ | ⟨-, ht'⟩
        · -- the thread that moved has its reply, which stays possible
          cases hmoved
          exact (hkeeps t j _ ht know hlater).2 _ (hmono _ _ _ _ hlater hreply)
        · exact hkeeps t' j' p' ht' know hlater
  exact hkeeps.2

end Uses

/-! ## Answers of one kind -/

section Once

variable {P : J × Except ε α → Prop} {c : Pool S ε α J σ} {t : Nat} {j : J} {s : σ}
  {p : Program S ε α}

/-- Thread `t` has only an answer of the kind `P` left to give. -/
def Finishing (P : J × Except ε α → Prop) (c : Pool S ε α J σ) (t : Nat) : Prop :=
  ∃ x, c.threads t = some (x.1, .ofResult x.2) ∧ P x

/-- An answer of the kind `P` is decided, or given already. -/
def Issued (P : J × Except ε α → Prop) (c : Pool S ε α J σ) : Prop :=
  (∃ t, c.Finishing P t) ∨ ∃ x ∈ c.answered, P x

/-- No two answers of the kind `P` are decided or given. -/
structure Once (P : J × Except ε α → Prop) (c : Pool S ε α J σ) : Prop where
  threads : ∀ t t', c.Finishing P t → c.Finishing P t' → t = t'
  answers : ∀ t, c.Finishing P t → ∀ x ∈ c.answered, ¬ P x
  answered : c.answered.Pairwise fun x y => ¬ (P x ∧ P y)

theorem not_issued_initial : ¬ Issued P (initial s : Pool S ε α J σ) := by
  rintro (⟨t, x, hx, -⟩ | ⟨x, hx, -⟩)
  · cases hx
  · cases hx

theorem once_initial : Once P (initial s : Pool S ε α J σ) where
  threads t _ h := absurd (.inl ⟨t, h⟩) not_issued_initial
  answers t h := absurd (.inl ⟨t, h⟩) not_issued_initial
  answered := .nil

/-- A thread keeps its job until it has answered. -/
theorem jobs_step {Q : Nat → J → Prop} {c c' : Pool S ε α J σ} {a : Action J}
    (h : ∀ t j p, c.threads t = some (j, p) → Q t j) (hstart : ∀ t j, a = .start t j → Q t j)
    (hstep : step exec body c a = some c') : ∀ t j p, c'.threads t = some (j, p) → Q t j := by
  intro t' j' p' ht'
  rcases step_cases exec body hstep with
    ⟨t, j, rfl, -, rfl⟩ | ⟨t, j, r, rfl, -, rfl⟩ | ⟨t, j, o, k, rfl, ht, rfl⟩
  · rcases threads_update.mp ht' with ⟨rfl, hmoved⟩ | ⟨-, ht'⟩
    · cases hmoved
      exact hstart _ _ rfl
    · exact h t' j' p' ht'
  · rcases threads_update.mp ht' with ⟨-, hmoved⟩ | ⟨-, ht'⟩
    · cases hmoved
    · exact h t' j' p' ht'
  · rcases threads_update.mp ht' with ⟨rfl, hmoved⟩ | ⟨-, ht'⟩
    · cases hmoved
      exact h _ _ _ ht
    · exact h t' j' p' ht'

/-- A thread that moves on decides an answer, or the same threads finish. -/
theorem Finishing.of_move {t' : Nat}
    (h : Finishing P
      { c with shared := s, threads := Function.update c.threads t (some (j, p)) } t') :
    (t' = t ∧ ∃ r, p = .ofResult r ∧ P (j, r)) ∨ t' ≠ t ∧ c.Finishing P t' := by
  obtain ⟨x, hx, hP⟩ := h
  rcases threads_update.mp hx with ⟨ht, hx⟩ | ⟨ht, hx⟩
  · cases hx
    exact .inl ⟨ht, _, rfl, hP⟩
  · exact .inr ⟨ht, x, hx, hP⟩

theorem Issued.of_move
    (h : Issued P
      { c with shared := s, threads := Function.update c.threads t (some (j, p)) }) :
    (∃ r, p = .ofResult r ∧ P (j, r)) ∨ Issued P c := by
  rcases h with ⟨t', h⟩ | h
  · rcases h.of_move with ⟨-, h⟩ | ⟨-, h⟩
    · exact .inl h
    · exact .inr (.inl ⟨t', h⟩)
  · exact .inr (.inr h)

/-- A move keeps `Once` if it decides no answer of the kind, or if it is the
first to decide one. -/
theorem Once.move (h : Once P c)
    (hfirst : (∃ r, p = .ofResult r ∧ P (j, r)) → ¬ Issued P c) :
    Once P { c with shared := s, threads := Function.update c.threads t (some (j, p)) } where
  threads t₁ t₂ h₁ h₂ := by
    rcases h₁.of_move with ⟨ht₁, hr⟩ | ⟨ht₁, hf₁⟩ <;> rcases h₂.of_move with ⟨ht₂, hr'⟩ | ⟨ht₂, hf₂⟩
    · rw [ht₁, ht₂]
    · exact absurd (.inl ⟨t₂, hf₂⟩) (hfirst hr)
    · exact absurd (.inl ⟨t₁, hf₁⟩) (hfirst hr')
    · exact h.threads t₁ t₂ hf₁ hf₂
  answers t₁ h₁ x hx hP := by
    rcases h₁.of_move with ⟨-, hr⟩ | ⟨-, hf₁⟩
    · exact hfirst hr (.inr ⟨x, hx, hP⟩)
    · exact h.answers t₁ hf₁ x hx hP
  answered := h.answered

variable {r : Except ε α}

/-- Giving an answer finishes no other thread. -/
theorem Finishing.of_answer {t' : Nat} {answered : List (J × Except ε α)}
    (h : Finishing P ⟨s, Function.update c.threads t none, answered⟩ t') :
    t' ≠ t ∧ c.Finishing P t' := by
  obtain ⟨x, hx, hP⟩ := h
  rcases threads_update.mp hx with ⟨-, hx⟩ | ⟨ht, hx⟩
  · cases hx
  · exact ⟨ht, x, hx, hP⟩

theorem Issued.of_answer (ht : c.threads t = some (j, .ofResult r))
    (h : Issued P { c with
      threads := Function.update c.threads t none
      answered := c.answered ++ [(j, r)] }) : Issued P c := by
  rcases h with ⟨t', h⟩ | ⟨x, hx, hP⟩
  · exact .inl ⟨t', h.of_answer.2⟩
  · rcases List.mem_append.mp hx with hx | hx
    · exact .inr ⟨x, hx, hP⟩
    · obtain rfl := List.mem_singleton.mp hx
      exact .inl ⟨t, _, ht, hP⟩

theorem Once.answer (h : Once P c) (ht : c.threads t = some (j, .ofResult r)) :
    Once P { c with
      threads := Function.update c.threads t none
      answered := c.answered ++ [(j, r)] } where
  threads t₁ t₂ h₁ h₂ := h.threads t₁ t₂ h₁.of_answer.2 h₂.of_answer.2
  answers t₁ h₁ x hx hP := by
    obtain ⟨hne, h₁⟩ := h₁.of_answer
    rcases List.mem_append.mp hx with hx | hx
    · exact h.answers t₁ h₁ x hx hP
    · obtain rfl := List.mem_singleton.mp hx
      exact hne (h.threads t₁ t h₁ ⟨_, ht, hP⟩)
  answered := by
    refine List.pairwise_append.mpr ⟨h.answered, List.pairwise_singleton .., ?_⟩
    rintro x hx y hy ⟨hPx, hPy⟩
    obtain rfl := List.mem_singleton.mp hy
    exact h.answers t ⟨_, ht, hPy⟩ x hx hPx

theorem Once.countP_le_one [DecidablePred P] (h : Once P c) :
    c.answered.countP (fun x => decide (P x)) ≤ 1 := by
  -- behind an answer of the kind there is no other one
  have hcount : ∀ xs : List (J × Except ε α), xs.Pairwise (fun x y => ¬ (P x ∧ P y)) →
      xs.countP (fun x => decide (P x)) ≤ 1 := by
    intro xs hxs
    induction hxs with
    | nil => simp
    | @cons x xs hx _ ih =>
      by_cases hP : P x
      · have hnone : xs.countP (fun y => decide (P y)) = 0 := by
          rw [List.countP_eq_zero]
          exact fun y hy => by simpa using fun hPy => hx y hy ⟨hP, hPy⟩
        simp [hP, hnone]
      · simpa [hP] using ih
  exact hcount _ h.answered

end Once

/-! ## Schedules -/

/-- Follow a given schedule, as long as `check` passes. -/
def follow (check : Pool S ε α J σ → Action J → Bool) (c : Pool S ε α J σ) :
    List (Action J) → Option (Pool S ε α J σ)
  | [] => some c
  | a :: rest =>
    if check c a then (step exec body c a).bind fun c' => follow check c' rest else none

/-- A schedule depends on what its own jobs do, and on no others. -/
theorem follow_congr {body' : J → Program S ε α} {check : Pool S ε α J σ → Action J → Bool}
    {as : List (Action J)} (h : ∀ t j, .start t j ∈ as → body j = body' j)
    (c : Pool S ε α J σ) : follow exec body check c as = follow exec body' check c as := by
  induction as generalizing c with
  | nil => rfl
  | cons a rest ih =>
    have hstep : step exec body c a = step exec body' c a := by
      cases a with
      | start t j => rw [step, step, h t j (List.mem_cons_self ..)]
      | advance t => rfl
    have hrest : ∀ c', follow exec body check c' rest = follow exec body' check c' rest :=
      ih fun t j hj => h t j (List.mem_cons_of_mem _ hj)
    simp only [follow, hstep, hrest]

/-- A schedule that can be followed is a run, and its steps meet whatever the
check guarantees. -/
theorem run_of_follow {ok : Pool S ε α J σ → Action J → Prop}
    {check : Pool S ε α J σ → Action J → Bool} {I : Pool S ε α J σ → Prop}
    (hstep : ∀ c c' a, I c → check c a = true → step exec body c a = some c' → I c')
    (hok : ∀ c a, I c → check c a = true → ok c a)
    {c₀ c c' : Pool S ε α J σ} {as : List (Action J)}
    (hrun : Run exec body ok c₀ c) (hc : I c) (h : follow exec body check c as = some c') :
    Run exec body ok c₀ c' := by
  induction as generalizing c with
  | nil =>
    cases h
    exact hrun
  | cons a rest ih =>
    rw [follow] at h
    split at h
    · next hcheck =>
      obtain ⟨d, hd, hrest⟩ := Option.bind_eq_some_iff.mp h
      exact ih (.tail hrun (hok c a hc hcheck) hd) (hstep c d a hc hcheck hd) hrest
    · cases h

end Pool

end FileTransfer.Effect
