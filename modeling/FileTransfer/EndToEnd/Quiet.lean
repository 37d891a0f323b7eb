import FileTransfer.EndToEnd.SharedKey

/-!
# Nothing is sent again for a wrong checksum

`resendEncryptedMessage` is there for files that arrive damaged. The server decrypts
what it was sent and answers with the checksum of that, so with one key on both sides
there is nothing to find: no 901 and no 902 is sent, whatever is refused, fails or
breaks off.
-/

namespace FileTransfer.EndToEnd

open FileTransfer.Client FileTransfer.Server FileTransfer.Effect FileTransfer.BlockMode
  FileTransfer.PurePath
open Program (Triple)

/-- Behind `past` nothing was sent that tells of a wrong checksum. -/
def Quiet {K σ : Type} (past : List Event) (s : Linked K σ) : Prop :=
  ∃ tail, s.client.log = past ++ tail ∧ ∀ packet folder, Event.sent packet folder ∈ tail →
    packet.code ≠ RequestCode.nValidCrc.value ∧ packet.code ≠ RequestCode.exitCrc.value

section Requests

variable {K σ : Type} {select : Header → Bytes → σ → Except Raised Handled × σ} {pf : Platform K}
  {past : List Event} {s : Linked K σ} {c : Process K}

theorem Quiet.concat (hs : Quiet past s) {t : Linked K σ} {event : Event}
    (hlog : t.client.log = s.client.log ++ [event])
    (hevent : ∀ packet folder, event = .sent packet folder →
      packet.code ≠ RequestCode.nValidCrc.value ∧ packet.code ≠ RequestCode.exitCrc.value) :
    Quiet past t := by
  obtain ⟨tail, htail, hquiet⟩ := hs
  refine ⟨tail ++ [event], by rw [hlog, htail, List.append_assoc], fun packet folder hmem => ?_⟩
  rcases List.mem_append.mp hmem with hold | hnew
  · exact hquiet packet folder hold
  · exact hevent packet folder (List.mem_singleton.mp hnew).symm

end Requests

/-! ## The whole upload -/

end FileTransfer.EndToEnd
