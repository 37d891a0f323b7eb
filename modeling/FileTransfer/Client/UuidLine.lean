import FileTransfer.Lib.Lines
import FileTransfer.Client.RequestHandler
import FileTransfer.Client.ResponseHandler

/-!
# The UUID line of `me.info`

`getUUIDandUserName` asks for 32 characters and leaves the digits to `std::stoi`, two
characters at a time. That accepts more than two digits: a digit and anything, or a blank
or a sign and a digit. What the line denotes is stated apart from the parser.
-/

namespace FileTransfer.Client

open FileTransfer.Server (Uid)

/-! ## Hexadecimal text -/

/-- The bytes that a text of hexadecimal digits denotes, two digits each. -/
inductive Denotes : Bytes → Bytes → Prop where
  | nil : Denotes [] []
  | cons {a b : UInt8} {high low : Nat} {line bytes : Bytes} :
      hexDigit a = some high → hexDigit b = some low → Denotes line bytes →
      Denotes (a :: b :: line) (UInt8.ofNat (16 * high + low) :: bytes)

theorem Denotes.length_eq {line bytes : Bytes} (h : Denotes line bytes) :
    line.length = 2 * bytes.length := by
  induction h with
  | nil => rfl
  | cons _ _ _ ih =>
    simp only [List.length_cons, ih]
    omega

theorem exists_cons_cons {line : Bytes} {n : Nat} (h : line.length = 2 * (n + 1)) :
    ∃ a b rest, line = a :: b :: rest := by
  rcases line with _ | ⟨a, _ | ⟨b, rest⟩⟩
  · simp at h
  · simp only [List.length_singleton] at h
    omega
  · exact ⟨a, b, rest, rfl⟩

/-- An even number of digits denotes something. -/
theorem exists_denotes {line : Bytes} {n : Nat} (hlength : line.length = 2 * n)
    (h : ∀ b ∈ line, (hexDigit b).isSome) : ∃ bytes, Denotes line bytes := by
  induction n generalizing line with
  | zero =>
    obtain rfl := List.eq_nil_of_length_eq_zero hlength
    exact ⟨[], .nil⟩
  | succ n ih =>
    obtain ⟨a, b, rest, rfl⟩ := exists_cons_cons hlength
    obtain ⟨high, ha⟩ := Option.isSome_iff_exists.mp (h a (by simp))
    obtain ⟨low, hb⟩ := Option.isSome_iff_exists.mp (h b (by simp))
    have hrest : rest.length = 2 * n := by
      simp only [List.length_cons] at hlength
      omega
    obtain ⟨bytes, hbytes⟩ := ih hrest fun x hx => h x (by simp [hx])
    exact ⟨_, .cons ha hb hbytes⟩

/-- What denotes something is digits. -/
theorem Denotes.isSome {line bytes : Bytes} (h : Denotes line bytes) :
    ∀ b ∈ line, (hexDigit b).isSome := by
  induction h with
  | nil =>
    intro b hb
    cases hb
  | cons hhigh hlow _ ih =>
    intro b hb
    rcases List.mem_cons.mp hb with rfl | hb
    · rw [hhigh]
      rfl
    rcases List.mem_cons.mp hb with rfl | hb
    · rw [hlow]
      rfl
    · exact ih b hb

/-- Each of the sixteen digits reads back as its value. -/
theorem hexDigit_hexChar {n : Nat} (h : n < 16) : hexDigit (hexChar n) = some n := by
  have hall : ∀ n < 16, hexDigit (hexChar n) = some n := by decide
  exact hall n h

/-- `toHex` prints what its digits denote. -/
theorem denotes_toHex (payload : Bytes) : Denotes (toHex payload) payload := by
  induction payload with
  | nil => exact .nil
  | cons byte payload ih =>
    have hbyte := byte.toNat_lt
    have hhigh : byte.toNat / 16 < 16 := by omega
    have hlow : byte.toNat % 16 < 16 := Nat.mod_lt _ (by decide)
    have hvalue : UInt8.ofNat (16 * (byte.toNat / 16) + byte.toNat % 16) = byte := by
      rw [Nat.div_add_mod, UInt8.ofNat_toNat]
    have hcons := Denotes.cons (hexDigit_hexChar hhigh) (hexDigit_hexChar hlow) ih
    rw [hvalue] at hcons
    exact hcons

/-! ## What `std::stoi` makes of two characters -/

/-- A digit is neither a blank nor a sign. -/
theorem of_hexDigit {a : UInt8} {n : Nat} (h : hexDigit a = some n) :
    isSpace a = false ∧ a ≠ 0x2d ∧ a ≠ 0x2b ∧ n < 16 := by
  revert n
  revert a
  decide +kernel

theorem stoi_digits {a b : UInt8} {high low : Nat} (ha : hexDigit a = some high)
    (hb : hexDigit b = some low) : stoi [a, b] = .ok (16 * high + low : Nat) := by
  obtain ⟨hspace, hminus, hplus, hhigh⟩ := of_hexDigit ha
  obtain ⟨-, -, -, hlow⟩ := of_hexDigit hb
  simp [stoi, hspace, hminus, hplus, ha, hb]
  omega

/-- What stands behind a digit is ignored. -/
theorem stoi_digit_junk {a b : UInt8} {n : Nat} (ha : hexDigit a = some n)
    (hb : hexDigit b = none) : stoi [a, b] = .ok (n : Nat) := by
  obtain ⟨hspace, hminus, hplus, hn⟩ := of_hexDigit ha
  simp [stoi, hspace, hminus, hplus, ha, hb]
  omega

theorem stoi_digit {b : UInt8} {n : Nat} (hb : hexDigit b = some n) :
    stoi [b] = .ok (n : Nat) := by
  obtain ⟨hspace, hminus, hplus, hn⟩ := of_hexDigit hb
  simp [stoi, hspace, hminus, hplus, hb]
  omega

theorem stoi_no_digit {b : UInt8} (hb : hexDigit b = none) : stoi [b] = .error .exception := by
  by_cases hspace : isSpace b = true
  · simp [stoi, hspace]
  · by_cases hminus : b = 0x2d
    · subst hminus
      rfl
    · by_cases hplus : b = 0x2b
      · subst hplus
        rfl
      · simp [stoi, hspace, hminus, hplus, hb]

/-- A blank is skipped. -/
theorem stoi_blank {a b : UInt8} (h : isSpace a = true) : stoi [a, b] = stoi [b] := by
  simp [stoi, h]

/-- A sign is taken, and asks for a digit. -/
theorem stoi_sign {a b : UInt8} (h : a = 0x2d ∨ a = 0x2b) :
    (∀ n, hexDigit b = some n → ∃ value, stoi [a, b] = .ok value) ∧
      (hexDigit b = none → stoi [a, b] = .error .exception) := by
  rcases h with rfl | rfl
  · refine ⟨fun n hb => ⟨-n, ?_⟩, fun hb => ?_⟩
    · obtain ⟨-, -, -, hn⟩ := of_hexDigit hb
      simp [stoi, isSpace, hb]
      omega
    · simp [stoi, isSpace, hb]
  · refine ⟨fun n hb => ⟨n, ?_⟩, fun hb => ?_⟩
    · obtain ⟨-, -, -, hn⟩ := of_hexDigit hb
      simp [stoi, isSpace, hb]
      omega
    · simp [stoi, isSpace, hb]

/-- The two characters of a piece that `std::stoi` accepts. -/
def Parses (a b : UInt8) : Prop :=
  (hexDigit a).isSome ∨ (isSpace a ∨ a = 0x2d ∨ a = 0x2b) ∧ (hexDigit b).isSome

instance (a b : UInt8) : Decidable (Parses a b) := inferInstanceAs (Decidable (_ ∨ _))

/-- **`std::stoi` on a piece**: it gives a number or throws `invalid_argument`. -/
theorem stoi_piece (a b : UInt8) :
    (Parses a b → ∃ value, stoi [a, b] = .ok value) ∧
      (¬ Parses a b → stoi [a, b] = .error .exception) := by
  cases ha : hexDigit a with
  | some high =>
    have hparses : Parses a b := Or.inl (by rw [ha]; rfl)
    refine ⟨fun _ => ?_, fun h => absurd hparses h⟩
    cases hb : hexDigit b with
    | some low => exact ⟨_, stoi_digits ha hb⟩
    | none => exact ⟨_, stoi_digit_junk ha hb⟩
  | none =>
    have hiff : Parses a b ↔ (isSpace a ∨ a = 0x2d ∨ a = 0x2b) ∧ (hexDigit b).isSome := by
      simp [Parses, ha]
    rw [hiff]
    by_cases hspace : isSpace a = true
    · rw [stoi_blank hspace]
      cases hb : hexDigit b with
      | some low => exact ⟨fun _ => ⟨_, stoi_digit hb⟩, fun h => absurd ⟨Or.inl hspace, rfl⟩ h⟩
      | none => exact ⟨fun h => by simp at h, fun _ => stoi_no_digit hb⟩
    by_cases hsign : a = 0x2d ∨ a = 0x2b
    · cases hb : hexDigit b with
      | some low =>
        exact ⟨fun _ => (stoi_sign hsign).1 low hb, fun h => absurd ⟨Or.inr hsign, rfl⟩ h⟩
      | none => exact ⟨fun h => by simp at h, fun _ => (stoi_sign hsign).2 hb⟩
    · obtain ⟨hminus, hplus⟩ := not_or.mp hsign
      refine ⟨fun h => absurd h.1 ?_, fun _ => ?_⟩
      · exact fun h => h.elim hspace hsign
      · simp [stoi, hspace, hminus, hplus, ha]

/-! ## The line as a whole -/

/-- The pieces of two characters. -/
def pieces : Bytes → List (UInt8 × UInt8)
  | a :: b :: rest => (a, b) :: pieces rest
  | _ => []

/-- A line of an even length goes through `uuidToBinary` if all its pieces parse. -/
theorem uuidToBinary_ok {line : Bytes} {n : Nat} (hlength : line.length = 2 * n)
    (h : ∀ p ∈ pieces line, Parses p.1 p.2) :
    ∃ data, uuidToBinary line = .ok data ∧ data.length = n + 1 := by
  induction n generalizing line with
  | zero =>
    obtain rfl := List.eq_nil_of_length_eq_zero hlength
    exact ⟨[0], rfl, rfl⟩
  | succ n ih =>
    obtain ⟨a, b, rest, rfl⟩ := exists_cons_cons hlength
    obtain ⟨value, hvalue⟩ := (stoi_piece a b).1 (h (a, b) (by simp [pieces]))
    have hrest : rest.length = 2 * n := by
      simp only [List.length_cons] at hlength
      omega
    obtain ⟨data, hdata, hlen⟩ := ih hrest fun p hp => h p (by simp [pieces, hp])
    refine ⟨UInt8.ofInt value :: data, ?_, congrArg (· + 1) hlen⟩
    simp only [uuidToBinary, hvalue, hdata]
    rfl

/-- The first piece that does not parse throws. -/
theorem uuidToBinary_error {line : Bytes} {n : Nat} (hlength : line.length = 2 * n)
    (h : ¬ ∀ p ∈ pieces line, Parses p.1 p.2) : uuidToBinary line = .error .exception := by
  induction n generalizing line with
  | zero =>
    obtain rfl := List.eq_nil_of_length_eq_zero hlength
    exact absurd (fun p hp => by cases hp) h
  | succ n ih =>
    obtain ⟨a, b, rest, rfl⟩ := exists_cons_cons hlength
    by_cases hpiece : Parses a b
    · obtain ⟨value, hvalue⟩ := (stoi_piece a b).1 hpiece
      have hrest : rest.length = 2 * n := by
        simp only [List.length_cons] at hlength
        omega
      have hothers : ¬ ∀ p ∈ pieces rest, Parses p.1 p.2 := by
        intro hall
        apply h
        intro p hp
        rcases List.mem_cons.mp hp with rfl | hp
        · exact hpiece
        · exact hall p hp
      simp only [uuidToBinary, hvalue, ih hrest hothers]
      rfl
    · simp only [uuidToBinary, (stoi_piece a b).2 hpiece]
      rfl

theorem ofInt_natCast (n : Nat) : UInt8.ofInt (n : Int) = UInt8.ofNat n := by
  have hmod : ((n : Int) % 2 ^ 8).toNat = n % 256 := by omega
  apply UInt8.toNat.inj
  rw [UInt8.ofInt, hmod, UInt8.toNat_ofNat', UInt8.toNat_ofNat']
  exact Nat.mod_mod _ _

/-- A line of digits gives the bytes that it denotes, and a zero byte. -/
theorem Denotes.uuidToBinary_eq {line bytes : Bytes} (h : Denotes line bytes) :
    uuidToBinary line = .ok (bytes ++ [0]) := by
  induction h with
  | nil => rfl
  | @cons a b high low line bytes ha hb _ ih =>
    simp only [uuidToBinary, stoi_digits ha hb, ih]
    show Except.ok (UInt8.ofInt ((16 * high + low : Nat) : Int) :: (bytes ++ [0])) = _
    rw [ofInt_natCast]
    rfl

/-! ## The file -/

/-- The second line of `me.info`. -/
def uuidLine (content : Bytes) : Bytes := (getline (getline content).2).1

/-- The line is exactly 32 hexadecimal digits. -/
def HexLine (line : Bytes) : Prop := line.length = 32 ∧ ∀ b ∈ line, (hexDigit b).isSome

section SignIn

variable {content : Bytes} (hname : (getline content).1 ≠ [])
  (hfits : (getline content).1.length ≤ nameSize)
include hname hfits

/-- What `getUUIDandUserName` makes of a file with a usable first line. -/
theorem getUUIDandUserName_eq : getUUIDandUserName (some content) =
    if (uuidLine content).length = 32 then .ok ((getline content).1 ++ [0], uuidLine content)
    else if (uuidLine content).length ≤ uidMessage.length then .error .exception
    else .error .outOfBounds := by
  have hlong : ¬ nameSize < (getline content).1.length := by omega
  have hempty : ¬ (getline content).1.isEmpty := by simpa using hname
  simp only [getUUIDandUserName, if_neg hlong, if_neg hempty]
  show (if (uuidLine content).length ≠ 32 ∨ (uuidLine content).length % 2 ≠ 0 then _ else _) = _
  by_cases hlength : (uuidLine content).length = 32
  · have hgood : ¬ ((uuidLine content).length ≠ 32 ∨ (uuidLine content).length % 2 ≠ 0) := by omega
    rw [if_neg hgood, if_pos hlength]
    rfl
  · have hbad : (uuidLine content).length ≠ 32 ∨ (uuidLine content).length % 2 ≠ 0 :=
      Or.inl hlength
    rw [if_pos hbad, if_neg hlength]
    rfl

/-- A line that is refused, by its length or by `std::stoi`, leaves the packet alone. -/
theorem clientSignIn_refused (packet : RequestPacket)
    (h : (uuidLine content).length ≠ 32 ∧ (uuidLine content).length ≤ uidMessage.length ∨
      (uuidLine content).length = 32 ∧ uuidToBinary (uuidLine content) = .error .exception) :
    clientSignIn (some content) packet = .ok (false, packet) := by
  have hinfo := getUUIDandUserName_eq hname hfits
  rcases h with ⟨hlength, hshort⟩ | ⟨hlength, herror⟩
  · rw [if_neg hlength, if_pos hshort] at hinfo
    simp only [clientSignIn, signInRequest, hinfo]
    rfl
  · rw [if_pos hlength] at hinfo
    have hrequest : signInRequest (some content) packet = .error .exception := by
      simp only [signInRequest, hinfo]
      show (uuidToBinary (uuidLine content) >>= fun uuid => _) = _
      rw [herror]
      rfl
    simp only [clientSignIn, hrequest]

/-- A line that is longer than the message about it leads out of the message. -/
theorem clientSignIn_overrun (packet : RequestPacket)
    (h : uidMessage.length < (uuidLine content).length) :
    clientSignIn (some content) packet = .error .outOfBounds := by
  have hinfo := getUUIDandUserName_eq hname hfits
  have hmessage : uidMessage.length = 84 := by decide
  rw [if_neg (by omega), if_neg (by omega)] at hinfo
  simp only [clientSignIn, signInRequest, hinfo]
  rfl

/-- A line that goes through gives its bytes to the client ID. -/
theorem clientSignIn_ok (packet : RequestPacket) {data : Bytes} {id : Uid}
    (hlength : (uuidLine content).length = 32)
    (hdata : uuidToBinary (uuidLine content) = .ok data) (hid : uidOf data = some id) :
    ∃ packet', clientSignIn (some content) packet = .ok (true, packet') ∧
      packet'.clientID = id ∧ packet'.payload = (getline content).1 ++ [0] ∧
      packet'.code = RequestCode.reconnect.value := by
  have hinfo := getUUIDandUserName_eq hname hfits
  rw [if_pos hlength] at hinfo
  have hsize : (UInt32.ofNat ((getline content).1 ++ [0]).length).toNat =
      ((getline content).1 ++ [0]).length := by
    apply UInt32.toNat_ofNat_of_lt
    rw [List.length_append, List.length_singleton]
    show (getline content).1.length + 1 < 2 ^ 32
    have hfits : (getline content).1.length ≤ 255 := hfits
    omega
  have hwhole : blit (initRequest { packet with clientID := id } .reconnect
      (UInt32.ofNat ((getline content).1 ++ [0]).length)).payload 0
        ((getline content).1 ++ [0]) = some ((getline content).1 ++ [0]) := by
    apply blit_whole
    simp only [initRequest, List.length_replicate, hsize]
  have hrequest : ∃ packet', signInRequest (some content) packet = .ok packet' ∧
      packet'.clientID = id ∧ packet'.payload = (getline content).1 ++ [0] ∧
      packet'.code = RequestCode.reconnect.value :=
    ⟨_, bind_eq_ok.mpr ⟨_, hinfo, bind_eq_ok.mpr ⟨_, hdata, bind_eq_ok.mpr
      ⟨_, inBounds_eq_ok.mpr hid, bind_eq_ok.mpr ⟨_, inBounds_eq_ok.mpr hwhole, rfl⟩⟩⟩⟩,
      rfl, rfl, rfl⟩
  obtain ⟨packet', hrequest, hfields⟩ := hrequest
  exact ⟨packet', by simp only [clientSignIn, hrequest], hfields⟩

end SignIn

/-- The UUID line is accepted exactly if it is 32 hexadecimal digits; then the client ID
is what they denote, otherwise it stays what it was. -/
structure AcceptsHexOnly (content : Bytes) : Prop where
  accepts : ∀ packet, (∃ packet', clientSignIn (some content) packet = .ok (true, packet')) ↔
    HexLine (uuidLine content)
  decodes : ∀ packet packet', clientSignIn (some content) packet = .ok (true, packet') →
    Denotes (uuidLine content) packet'.clientID.bytes
  refuses : ∀ packet, ¬ HexLine (uuidLine content) →
    ∃ packet', clientSignIn (some content) packet = .ok (false, packet') ∧
      packet'.clientID = packet.clientID

/-- Every piece of 32 characters parses: then they are accepted, digits or not. -/
theorem clientSignIn_parses {content : Bytes} (hname : (getline content).1 ≠ [])
    (hfits : (getline content).1.length ≤ nameSize) (hlength : (uuidLine content).length = 32)
    (h : ∀ p ∈ pieces (uuidLine content), Parses p.1 p.2) (packet : RequestPacket) :
    ∃ packet', clientSignIn (some content) packet = .ok (true, packet') := by
  obtain ⟨data, hdata, hlen⟩ := uuidToBinary_ok (n := 16) hlength h
  obtain ⟨id, hid⟩ : ∃ id, uidOf data = some id := by
    have hle : uidSize ≤ data.length := by
      rw [hlen]
      decide
    exact ⟨_, dif_pos hle⟩
  obtain ⟨packet', hsign, -⟩ := clientSignIn_ok hname hfits packet hlength hdata hid
  exact ⟨packet', hsign⟩

/-- 32 digits are accepted, and the client ID is what they denote. -/
theorem clientSignIn_denotes {content : Bytes} (hname : (getline content).1 ≠ [])
    (hfits : (getline content).1.length ≤ nameSize) {id : Uid}
    (h : Denotes (uuidLine content) id.bytes) (packet : RequestPacket) :
    ∃ packet', clientSignIn (some content) packet = .ok (true, packet') ∧
      packet'.clientID = id ∧ packet'.payload = (getline content).1 ++ [0] ∧
      packet'.code = RequestCode.reconnect.value := by
  have hlength : (uuidLine content).length = 32 := by rw [h.length_eq, id.length_eq]
  have htake : uidOf (id.bytes ++ [0]) = some id := by
    have hle : uidSize ≤ (id.bytes ++ [0]).length := by
      rw [List.length_append, id.length_eq]
      decide
    rw [uidOf, dif_pos hle]
    congr
    exact List.take_left' id.length_eq
  exact clientSignIn_ok hname hfits packet hlength h.uuidToBinary_eq htake

/-- **Which UUID lines are taken for what they are**: those that are no longer than the
message about them, unless 32 characters that are not all digits parse piece by piece. -/
theorem acceptsHexOnly_iff {content : Bytes} (hname : (getline content).1 ≠ [])
    (hfits : (getline content).1.length ≤ nameSize) :
    AcceptsHexOnly content ↔ (uuidLine content).length ≤ uidMessage.length ∧
      ((uuidLine content).length = 32 → (∀ b ∈ uuidLine content, (hexDigit b).isSome) ∨
        ¬ ∀ p ∈ pieces (uuidLine content), Parses p.1 p.2) := by
  have hmessage : uidMessage.length = 84 := by decide
  constructor
  · intro h
    constructor
    · by_contra hlong
      have hbad : ¬ HexLine (uuidLine content) := fun hline => by
        have hlength := hline.1
        omega
      obtain ⟨packet', hfalse, -⟩ := h.refuses ⟨ignore, 0, 0, 0, []⟩ hbad
      rw [clientSignIn_overrun hname hfits _ (by omega)] at hfalse
      cases hfalse
    · intro hlength
      by_contra hboth
      obtain ⟨hdigits, hparses⟩ := not_or.mp hboth
      have hsign := clientSignIn_parses hname hfits hlength (not_not.mp hparses)
        ⟨ignore, 0, 0, 0, []⟩
      exact hdigits ((h.accepts _).mp hsign).2
  · intro h
    obtain ⟨hshort, hpieces⟩ := h
    by_cases hline : HexLine (uuidLine content)
    · -- digits: accepted, as what they denote
      obtain ⟨bytes, hbytes⟩ := exists_denotes (n := 16) hline.1 hline.2
      have hlen : bytes.length = 16 := by
        have heq := hbytes.length_eq
        rw [hline.1] at heq
        omega
      have hsign := @clientSignIn_denotes _ hname hfits ⟨bytes, hlen⟩ hbytes
      refine ⟨fun packet => ⟨fun _ => hline, fun _ => ?_⟩, ?_, fun _ hbad => absurd hline hbad⟩
      · obtain ⟨packet', hok, -⟩ := hsign packet
        exact ⟨packet', hok⟩
      · intro packet packet' hok
        obtain ⟨packet₁, hok₁, hid, -⟩ := hsign packet
        rw [hok₁] at hok
        cases hok
        rw [hid]
        exact hbytes
    · -- anything else: refused
      have hrefused : ∀ packet, clientSignIn (some content) packet = .ok (false, packet) := by
        intro packet
        apply clientSignIn_refused hname hfits
        by_cases hlength : (uuidLine content).length = 32
        · right
          refine ⟨hlength, ?_⟩
          rcases hpieces hlength with hdigits | hparses
          · exact absurd ⟨hlength, hdigits⟩ hline
          · exact uuidToBinary_error (n := 16) hlength hparses
        · exact Or.inl ⟨hlength, hshort⟩
      refine ⟨fun packet => ⟨fun hok => ?_, fun hgood => absurd hgood hline⟩, ?_,
        fun packet _ => ⟨packet, hrefused packet, rfl⟩⟩
      · obtain ⟨packet', hok⟩ := hok
        rw [hrefused] at hok
        cases hok
      · intro packet packet' hok
        rw [hrefused] at hok
        cases hok

theorem pieces_replicate (n : Nat) (a b : UInt8) :
    pieces (List.replicate n [a, b]).flatten = List.replicate n (a, b) := by
  induction n with
  | zero => rfl
  | succ n ih =>
    simp only [List.replicate_succ, List.flatten_cons, List.cons_append, List.nil_append, pieces,
      ih]

/-- The `me.info` of the user `u`, with a line of sixteen times the same piece. -/
def infoOf (a b : UInt8) : Bytes :=
  [0x75, 0x0a] ++ (List.replicate 16 [a, b]).flatten ++ [0x0a]

/-- With digits it is taken for what it is. -/
theorem infoOf_digits : AcceptsHexOnly (infoOf 0x39 0x61) :=
  (acceptsHexOnly_iff (by decide) (by decide)).mpr ⟨by decide, fun _ => Or.inl (by decide +kernel)⟩

/-- With a digit and a letter that is none, it is taken for sixteen bytes. -/
theorem infoOf_junk :
    ¬ AcceptsHexOnly (infoOf 0x30 0x67) ∧
      ∃ packet', clientSignIn (some (infoOf 0x30 0x67)) ⟨ignore, 0, 0, 0, []⟩ =
        .ok (true, packet') := by
  have hline : uuidLine (infoOf 0x30 0x67) = (List.replicate 16 [0x30, 0x67]).flatten := by decide
  have hparses : ∀ p ∈ pieces (uuidLine (infoOf 0x30 0x67)), Parses p.1 p.2 := by
    intro p hp
    rw [hline, pieces_replicate] at hp
    rw [List.eq_of_mem_replicate hp]
    decide
  have hsign := clientSignIn_parses (by decide) (by decide) (by rw [hline]; rfl) hparses
    ⟨ignore, 0, 0, 0, []⟩
  refine ⟨fun h => ?_, hsign⟩
  have hdigits := ((h.accepts _).mp hsign).2
  exact absurd (hdigits 0x67 (by rw [hline]; decide)) (by decide)

end FileTransfer.Client
