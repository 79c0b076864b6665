import RepoAudit.Proofs.Bytes.Base64
import RepoAudit.Proofs.Bytes.Replacement
import RepoAudit.Proofs.Host.Address
import RepoAudit.Proofs.Host.Failure
import RepoAudit.Proofs.Json.RoundTrip

/-!
# The text of a file

A file comes in base 64, broken into lines. What the client gives is the text of its octets, with replacements where
they are broken, and so just the text that was sent when there was one.
-/

namespace RepoAudit.Host

variable {path : String} {value content : Json} {octets : List UInt8}

lemma contentOf_of_decoded (member : value.get? "content" = some content)
    (encoding : value.getD "encoding" = .text "base64")
    (decoded : Base64.decode content.display.toList = .ok octets) :
    contentOf path value = .ok (String.ofList (Utf8.decodeReplacing octets)) := by
  have known : (Json.text "base64").isText "base64" = true := by simp [Json.isText]
  simp [contentOf, member, encoding, decoded, known]

lemma file_of_tells {client : Client} {owner name : String} {outcome : Outcome}
    (replies : client.reply (.file owner name path) = .ok outcome) (tells : outcome.Tells value) :
    client.file owner name path = contentOf path value := by
  rw [Client.file, ask_eq, replies]
  show outcome.json _ _ >>= _ = _
  rw [json_eq_ok_iff.mpr tells]
  rfl

/-- A file whose octets were sent in base 64, with lines that end anywhere, is read as the text that it holds. Octets
that are no text are read as well: their text has a replacement for each piece that is broken. -/
theorem files_are_read_as_sent {client : Client} {owner name path sent : String} {outcome : Outcome} {value : Json}
    {octets : List UInt8} (replies : client.reply (.file owner name path) = .ok outcome) (tells : outcome.Tells value)
    (content : value.get? "content" = some (.text sent)) (encoding : value.getD "encoding" = .text "base64")
    (written : Base64.unbroken sent.toList = Base64.encode octets) :
    (∀ text : String, octets = Utf8.encode text.toList → client.file owner name path = .ok text) ∧
      ∃ text, client.file owner name path = .ok text ∧
        ∀ other : List Char, Utf8.Replaced octets other ↔ other = text.toList := by
  have decoded : Base64.decode (Json.text sent).display.toList = .ok octets := Base64.decode_of_unbroken written
  have reads : client.file owner name path = .ok (String.ofList (Utf8.decodeReplacing octets)) := by
    rw [file_of_tells replies tells, contentOf_of_decoded content encoding decoded]
  refine ⟨?_, _, reads, ?_⟩
  · rintro text rfl
    rw [reads, Utf8.decodeReplacing_encode, String.ofList_toList]
  · intro other
    rw [Utf8.replaced_iff, String.toList_ofList, eq_comm]

/-- What a host says of a file with one character, whose octets are spread over two groups of digits. -/
def smile : Json := .object [("content", .text "8J+Y\ngA=\n=\n"), ("encoding", .text "base64")]

theorem files_are_read_as_sent_smile :
    ∃ send : Request → Outcome, (∃ body, ∀ request, send request = .answer body) ∧
      (Client.mk {} send).file "o" "r" "smile.txt" = .ok "😀" := by
  have read : Json.read smile.write = .ok smile := by
    have ordered : Json.inOrder (Json.settled.settledMembers
        [("content", .text "8J+Y\ngA=\n=\n"), ("encoding", .text "base64")]) =
          [("content", .text "8J+Y\ngA=\n=\n"), ("encoding", .text "base64")] :=
      List.mergeSort_of_pairwise (List.pairwise_pair.mpr (by decide))
    rw [Json.read_write (by decide) (by decide), smile, Json.settled, ordered]
    rfl
  have tells : (Outcome.answer (Utf8.encode smile.write.toList)).Tells smile :=
    .answer (Utf8.decode_encode _) (by rw [String.ofList_toList, read])
  refine ⟨fun _ => .answer (Utf8.encode smile.write.toList), ⟨_, fun _ => rfl⟩, ?_⟩
  have replies : (Client.mk {} fun _ => .answer (Utf8.encode smile.write.toList)).reply (.file "o" "r" "smile.txt") =
      .ok (.answer (Utf8.encode smile.write.toList)) := by
    have scheme : hasScheme (String.ofList (requestedBase {})) = true := by decide
    rw [Client.reply, request_eq, if_pos scheme]
    rfl
  have written : Base64.unbroken "8J+Y\ngA=\n=\n".toList = Base64.encode (Utf8.encode "😀".toList) := by decide
  exact (files_are_read_as_sent replies tells rfl rfl written).1 "😀" rfl

end RepoAudit.Host
