import FileTransfer.Server.Framing

/-!
# Serving as the bytes come

Between two arrivals the thread of a client waits in a `recv`. A `Serving` is the
thread at such a moment, and `feed` is an arrival: whole requests are answered,
and the thread waits behind them. A `Serving` takes whole requests only, so it
does not matter to it how the bytes are cut into arrivals. To `handle_client` it
does: a `recv` that returns less than it asks for cuts a payload short. All
arrivals together make the thread do what `handle_client` does on the whole stream
for transports that return all they are asked for (`hcut` of
`EndToEnd.handleClient_eq_advance`).
-/

namespace FileTransfer.Server

open Conn

/-- The thread of one client: the bytes that have come and are not part of a
whole request, whether it is still in the loop of `handle_client`, and the state
that `req_select` acts on. -/
structure Serving (σ : Type) where
  unread : Bytes
  live : Bool
  state : σ

/-! ## Frames at the front of a stream -/

section Frames

variable {stream : Bytes} {header : Header} {payload rest : Bytes}

/-- A whole frame stays one, whatever comes behind it. -/
theorem nextFrame_append (h : nextFrame stream = some (header, payload, rest)) (more : Bytes) :
    nextFrame (stream ++ more) = some (header, payload, rest ++ more) := by
  obtain ⟨hunpack, hle, rfl, rfl⟩ := nextFrame_eq_some h
  have hheader : Constants.headerSize ≤ stream.length := by omega
  have hwhole : Constants.headerSize + header.size ≤ (stream ++ more).length := by
    rw [List.length_append]
    omega
  have hpayload : header.size ≤ (stream.drop Constants.headerSize).length := by
    rw [List.length_drop]
    omega
  simp only [nextFrame, List.take_append_of_le_length hheader, hunpack, if_pos hwhole,
    List.drop_append_of_le_length hheader, List.take_append_of_le_length hpayload,
    List.drop_append_of_le_length hle]

theorem length_nextFrame (h : nextFrame stream = some (header, payload, rest)) :
    rest.length < stream.length := by
  obtain ⟨-, hle, -, rfl⟩ := nextFrame_eq_some h
  have hheader : 0 < Constants.headerSize := by decide
  rw [List.length_drop]
  omega

end Frames

namespace Serving

variable {σ : Type} (select : Header → Bytes → σ → Except Raised Handled × σ)

/-! ## Going on as far as the bytes allow -/

/-- The responses that are sent for what has come, and the thread that waits for
more. -/
def advance (s : Serving σ) : List Bytes × Serving σ :=
  if s.live then
    match _h : nextFrame s.unread with
    | none => ([], s)
    | some (header, payload, rest) =>
      match select header payload s.state with
      | (.ok (.response (b :: bs)), state) =>
        let (sent, last) := advance ⟨rest, true, state⟩
        ((b :: bs) :: sent, last)
      -- `handle_request` is called again before anything is sent
      | (.ok .handleRequest, state) => advance ⟨rest, true, state⟩
      | (_, state) => ([], ⟨rest, false, state⟩)
  else ([], s)
termination_by s.unread.length
decreasing_by
  · exact length_nextFrame _h
  · exact length_nextFrame _h

/-- More bytes have come. -/
def feed (bytes : Bytes) (s : Serving σ) : List Bytes × Serving σ :=
  advance select { s with unread := s.unread ++ bytes }

/-- Nothing that has come is left to be answered. -/
def Waits (s : Serving σ) : Prop := s.live = true → nextFrame s.unread = none

variable {select} {s : Serving σ}

theorem advance_of_waits (h : s.Waits) : advance select s = ([], s) := by
  rw [advance]
  split
  · next hlive =>
    split
    · rfl
    · next hframe =>
      rw [h hlive] at hframe
      cases hframe
  · rfl

theorem advance_of_not_live (h : s.live = false) : advance select s = ([], s) :=
  advance_of_waits fun hlive => absurd (hlive.symm.trans h) (by decide)

/-- One whole request, on what `req_select` makes of it. -/
theorem advance_of_frame {header : Header} {payload rest : Bytes} (hlive : s.live = true)
    (hframe : nextFrame s.unread = some (header, payload, rest)) :
    advance select s =
      match select header payload s.state with
      | (.ok (.response (b :: bs)), state) =>
        ((b :: bs) :: (advance select ⟨rest, true, state⟩).1,
          (advance select ⟨rest, true, state⟩).2)
      | (.ok .handleRequest, state) => advance select ⟨rest, true, state⟩
      | (_, state) => ([], ⟨rest, false, state⟩) := by
  rw [advance, if_pos hlive]
  split
  · next hnone =>
    rw [hframe] at hnone
    cases hnone
  · next hsome =>
    rw [hframe] at hsome
    cases hsome
    rfl

theorem waits_advance (s : Serving σ) : (advance select s).2.Waits := by
  induction hlen : s.unread.length using Nat.strong_induction_on generalizing s with
  | _ len ih =>
    by_cases hlive : s.live
    swap
    · rw [advance_of_not_live (Bool.not_eq_true _ ▸ hlive)]
      exact fun h => absurd h hlive
    rcases hframe : nextFrame s.unread with _ | ⟨header, payload, rest⟩
    · rw [advance_of_waits fun _ => hframe]
      exact fun _ => hframe
    have hlt : rest.length < len := hlen ▸ length_nextFrame hframe
    rw [advance_of_frame hlive hframe]
    split
    · exact ih _ hlt ⟨rest, true, _⟩ rfl
    · exact ih _ hlt ⟨rest, true, _⟩ rfl
    · exact fun h => by cases h

/-- What has come is answered first, and then what comes behind it. -/
theorem advance_append (s : Serving σ) (bytes : Bytes) :
    advance select { s with unread := s.unread ++ bytes } =
      ((advance select s).1 ++ (feed select bytes (advance select s).2).1,
        (feed select bytes (advance select s).2).2) := by
  induction hlen : s.unread.length using Nat.strong_induction_on generalizing s with
  | _ len ih =>
    by_cases hlive : s.live
    swap
    · have hdead : s.live = false := Bool.not_eq_true _ ▸ hlive
      rw [advance_of_not_live hdead]
      rfl
    rcases hframe : nextFrame s.unread with _ | ⟨header, payload, rest⟩
    · rw [advance_of_waits (s := s) fun _ => hframe]
      rfl
    have hlt : rest.length < len := hlen ▸ length_nextFrame hframe
    have hmore := nextFrame_append hframe bytes
    rw [advance_of_frame hlive hframe,
      advance_of_frame (s := { s with unread := s.unread ++ bytes }) hlive hmore]
    dsimp only
    split
    · next state _ =>
      have hrest := ih _ hlt ⟨rest, true, state⟩ rfl
      dsimp only at hrest ⊢
      rw [hrest]
      rfl
    · next state _ => exact ih _ hlt ⟨rest, true, state⟩ rfl
    · -- the loop has ended, and nobody reads what comes now
      next state _ _ _ =>
      rw [feed, advance_of_not_live (s := ⟨rest ++ bytes, false, state⟩) rfl]
      rfl

theorem waits_feed (bytes : Bytes) (s : Serving σ) : (feed select bytes s).2.Waits :=
  waits_advance _

theorem feed_nil (h : s.Waits) : feed select [] s = ([], s) := by
  rw [feed, List.append_nil]
  exact advance_of_waits h

/-- Nobody reads what comes behind the end of the loop. -/
theorem feed_of_not_live (h : s.live = false) (bytes : Bytes) :
    feed select bytes s = ([], { s with unread := s.unread ++ bytes }) :=
  advance_of_not_live (s := { s with unread := s.unread ++ bytes }) h

/-- **Arrivals add up**: two of them are one of both together. -/
theorem feed_append (first second : Bytes) (s : Serving σ) :
    feed select (first ++ second) s =
      ((feed select first s).1 ++ (feed select second (feed select first s).2).1,
        (feed select second (feed select first s).2).2) := by
  rw [feed, ← List.append_assoc]
  exact @advance_append σ select { s with unread := s.unread ++ first } second

end Serving

end FileTransfer.Server
