import FileTransfer.Lib.Bytes

/-!
# Text

A text is the list of its code points (a Python `str`). Strict UTF-8 is the
core library's; ASCII is the part of it below 128.
-/

namespace FileTransfer

/-- A text, one entry per code point. -/
abbrev Str := List Char

/-- `bytes.decode('ascii')`; `none` on a byte above 127. -/
def asciiDecode (b : Bytes) : Option Str :=
  if b.all (· < 128) then some (b.map fun x => Char.ofNat x.toNat) else none

/-- `bytes.decode('utf-8')`; `none` on an invalid sequence. -/
def utf8Decode (b : Bytes) : Option Str := b.toByteArray.utf8Decode?.map Array.toList

/-- `str.encode()`. -/
def utf8Encode (s : Str) : Bytes := s.flatMap String.utf8EncodeChar

@[simp] theorem utf8Encode_append (s t : Str) :
    utf8Encode (s ++ t) = utf8Encode s ++ utf8Encode t :=
  List.flatMap_append

theorem utf8Encode_toByteArray (s : Str) : (utf8Encode s).toByteArray = s.utf8Encode := rfl

/-- Encoding is inverted by decoding. -/
@[simp] theorem utf8Decode_utf8Encode (s : Str) : utf8Decode (utf8Encode s) = some s := by
  simp [utf8Decode, utf8Encode_toByteArray, List.utf8Decode?_utf8Encode]

/-- What is decoded encodes to the bytes it was decoded from. -/
theorem utf8Encode_of_decode {b : Bytes} {s : Str} (h : utf8Decode b = some s) :
    utf8Encode s = b := by
  obtain ⟨chars, hchars, rfl⟩ := Option.map_eq_some_iff.mp h
  have hsome : b.toByteArray.utf8Decode?.isSome := by
    rw [hchars]
    rfl
  have hget : b.toByteArray.utf8Decode?.get hsome = chars := Option.get_of_mem hsome hchars
  have hencode : chars.toList.utf8Encode = b.toByteArray :=
    hget ▸ ByteArray.utf8Encode_get_utf8Decode? (h := hsome)
  exact List.toByteArray_inj.mp (utf8Encode_toByteArray _ ▸ hencode)

/-- A run of one ASCII character encodes to the run of its byte. -/
theorem utf8Encode_replicate_pipe (n : Nat) :
    utf8Encode (List.replicate n '|') = List.replicate n 0x7c := by
  induction n with
  | zero => rfl
  | succ n ih =>
    have hpipe : utf8Encode ['|'] = [0x7c] := by decide
    rw [List.replicate_succ, ← List.singleton_append, utf8Encode_append, ih, hpipe,
      List.singleton_append, List.replicate_succ]

end FileTransfer
